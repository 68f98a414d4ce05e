import LiveExpr.Value.Basic
import Mathlib.Tactic.Common

/-!
# Parts

The expressions that stand in an expression and the values that stand in a value, at every
depth, with the identifiers that occur in code. Main statements: `Expr.induction_children`,
induction over the direct parts of expressions, `Expr.every_iff` and `Value.every_iff`, what
holds of all that stands in an expression or a value.
-/

namespace LiveExpr

namespace Pattern

mutual

/-- The identifiers in a pattern. -/
def ids : Pattern → List NodeId
  | .constructor id _ args => id :: idsOfList args
  | .variable id _ | .integer id _ | .bool id _ | .character id _ | .string id _
  | .float id _ | .null id | .blank id => [id]

/-- The identifiers in patterns. -/
def idsOfList : List Pattern → List NodeId
  | [] => []
  | pattern :: rest => ids pattern ++ idsOfList rest

end

end Pattern

theorem sizeOf_snd_lt {α β : Type} [SizeOf α] [SizeOf β] {pairs : List (α × β)} {b : β}
    (h : b ∈ pairs.map Prod.snd) :
  sizeOf b < sizeOf pairs
  := by
  obtain ⟨pair, hpair, rfl⟩ := List.mem_map.mp h
  have hlt : sizeOf pair < sizeOf pairs := List.sizeOf_lt_of_mem hpair
  have hsnd : sizeOf pair = 1 + sizeOf pair.1 + sizeOf pair.2 := by cases pair; rfl
  omega

/-! ### Expressions -/

namespace Expr

/-- The expressions that an expression is directly made of. -/
def children : Expr → List Expr
  | .letIn _ _ value body => [value, body]
  | .conditional _ condition thenCase elseCase => [condition, thenCase, elseCase]
  | .lambda _ _ body => [body]
  | .fieldAccess _ object _ => [object]
  | .apply _ callee args _ _ => callee :: args
  | .list _ items => items
  | .record _ fields => fields.map Prod.snd
  | .constructor _ _ args => args
  | .matchCases _ scrutinee cases => scrutinee :: cases.map Prod.snd
  | .featureFlag _ condition oldCode newCode => [condition, oldCode, newCode]
  | _ => []

mutual

/-- The expressions that stand in an expression, itself included. -/
def subterms (e : Expr) : List Expr :=
  e :: match e with
  | .letIn _ _ value body => subterms value ++ subterms body
  | .conditional _ condition thenCase elseCase =>
    subterms condition ++ (subterms thenCase ++ subterms elseCase)
  | .lambda _ _ body => subterms body
  | .fieldAccess _ object _ => subterms object
  | .apply _ callee args _ _ => subterms callee ++ subtermsOfList args
  | .list _ items => subtermsOfList items
  | .record _ fields => subtermsOfFields fields
  | .constructor _ _ args => subtermsOfList args
  | .matchCases _ scrutinee cases => subterms scrutinee ++ subtermsOfCases cases
  | .featureFlag _ condition oldCode newCode =>
    subterms condition ++ (subterms oldCode ++ subterms newCode)
  | _ => []

/-- The expressions that stand in expressions. -/
def subtermsOfList : List Expr → List Expr
  | [] => []
  | e :: rest => subterms e ++ subtermsOfList rest

/-- The expressions that stand in the fields of a record. -/
def subtermsOfFields : List (String × Expr) → List Expr
  | [] => []
  | (_, e) :: rest => subterms e ++ subtermsOfFields rest

/-- The expressions that stand in the bodies of cases. -/
def subtermsOfCases : List (Pattern × Expr) → List Expr
  | [] => []
  | (_, body) :: rest => subterms body ++ subtermsOfCases rest

end

/-- The identifiers that a node itself has: its own, and those of the parameters, patterns
or step of a pipeline that belong to it. -/
def ownIds : Expr → List NodeId
  | .lambda id parameters _ => id :: parameters.map Prod.fst
  | .matchCases id _ cases => id :: cases.flatMap fun case => case.1.ids
  | .apply id _ _ (.inPipe pipe) _ => [id, pipe]
  | e => [e.id]

/-- The identifiers that occur in an expression. -/
def ids (e : Expr) : List NodeId :=
  e.subterms.flatMap ownIds

/-- Whether all that stands in an expression meets a predicate. -/
def Every (p : Expr → Prop) (e : Expr) : Prop :=
  ∀ node ∈ e.subterms, p node

theorem sizeOf_child_lt {e child : Expr} (h : child ∈ e.children) :
  sizeOf child < sizeOf e
  := by
  cases e with
  | integer | float | string | bool | null | character | blank | «variable» | functionValue =>
    cases h
  | letIn | conditional | lambda | fieldAccess | featureFlag =>
    simp only [children, List.mem_cons, List.not_mem_nil, or_false] at h
    rcases h with rfl | rfl | rfl <;> simp <;> omega
  | apply id callee args position railUse =>
    rcases List.mem_cons.mp h with rfl | h
    · simp
      omega
    · have := List.sizeOf_lt_of_mem h
      simp
      omega
  | list id items | constructor id name items =>
    have : sizeOf child < sizeOf items := List.sizeOf_lt_of_mem h
    simp
    omega
  | record id fields =>
    have := sizeOf_snd_lt h
    simp
    omega
  | matchCases id scrutinee cases =>
    rcases List.mem_cons.mp h with rfl | h
    · simp
      omega
    · have := sizeOf_snd_lt h
      simp
      omega

/-- Induction over the expressions that an expression is directly made of. -/
theorem induction_children {p : Expr → Prop}
    (step : ∀ e : Expr, (∀ child ∈ e.children, p child) → p e) (e : Expr) :
  p e
  := step e fun child h =>
    have := sizeOf_child_lt h
    induction_children step child
termination_by sizeOf e

section

variable {p : Expr → Prop} {e node other : Expr}

theorem mem_subtermsOfList {es : List Expr} :
  node ∈ subtermsOfList es ↔ ∃ e ∈ es, node ∈ e.subterms
  := by
  induction es with
  | nil => simp [subtermsOfList]
  | cons e rest ih => simp [subtermsOfList, ih]

theorem mem_subtermsOfFields {fields : List (String × Expr)} :
  node ∈ subtermsOfFields fields ↔ ∃ e ∈ fields.map Prod.snd, node ∈ e.subterms
  := by
  induction fields with
  | nil => simp [subtermsOfFields]
  | cons field rest ih => simp [subtermsOfFields, ih]

theorem mem_subtermsOfCases {cases : List (Pattern × Expr)} :
  node ∈ subtermsOfCases cases ↔ ∃ e ∈ cases.map Prod.snd, node ∈ e.subterms
  := by
  induction cases with
  | nil => simp [subtermsOfCases]
  | cons case rest ih => simp [subtermsOfCases, ih]

theorem subtermsOfList_eq {es : List Expr} :
  subtermsOfList es = es.flatMap subterms
  := by
  induction es with
  | nil => rfl
  | cons e rest ih => rw [subtermsOfList, ih, List.flatMap_cons]

theorem subtermsOfFields_eq {fields : List (String × Expr)} :
  subtermsOfFields fields = (fields.map Prod.snd).flatMap subterms
  := by
  induction fields with
  | nil => rfl
  | cons field rest ih => rw [subtermsOfFields, ih, List.map_cons, List.flatMap_cons]

theorem subtermsOfCases_eq {cases : List (Pattern × Expr)} :
  subtermsOfCases cases = (cases.map Prod.snd).flatMap subterms
  := by
  induction cases with
  | nil => rfl
  | cons case rest ih => rw [subtermsOfCases, ih, List.map_cons, List.flatMap_cons]

/-- What stands in an expression is the expression, and then what stands in its direct
parts, one after another. -/
theorem subterms_eq (e : Expr) :
  e.subterms = e :: e.children.flatMap subterms
  := by
  cases e <;>
    simp [subterms, children, subtermsOfList_eq, subtermsOfFields_eq, subtermsOfCases_eq]

/-- The identifiers of an expression are its own ones and those of its direct parts. -/
theorem ids_eq (e : Expr) :
  e.ids = e.ownIds ++ e.children.flatMap ids
  := by
  rw [ids, subterms_eq, List.flatMap_cons, List.flatMap_assoc]
  rfl

/-- What stands in an expression is the expression or stands in a direct part of it. -/
theorem mem_subterms_iff :
  node ∈ e.subterms ↔ node = e ∨ ∃ child ∈ e.children, node ∈ child.subterms
  := by
  cases e <;>
    simp [subterms, children, mem_subtermsOfList, mem_subtermsOfFields, mem_subtermsOfCases]

theorem every_iff :
  e.Every p ↔ p e ∧ ∀ child ∈ e.children, child.Every p
  := by
  simp only [Every, mem_subterms_iff (e := e)]
  constructor
  · intro h
    exact ⟨h e (.inl rfl), fun child hchild node hnode => h node (.inr ⟨child, hchild, hnode⟩)⟩
  · rintro ⟨hself, hchildren⟩ node (rfl | ⟨child, hchild, hnode⟩)
    · exact hself
    · exact hchildren child hchild node hnode

theorem Every.self (h : e.Every p) :
  p e
  := (every_iff.mp h).1

theorem Every.child (h : e.Every p) {part : Expr} (hpart : part ∈ e.children) :
  part.Every p
  := (every_iff.mp h).2 part hpart

/-- What stands in something that stands in an expression stands in the expression. -/
theorem mem_subterms_trans (h : node ∈ e.subterms) (h' : other ∈ node.subterms) :
  other ∈ e.subterms
  := by
  induction e using induction_children with
  | step e ih =>
    rcases mem_subterms_iff.mp h with rfl | ⟨child, hchild, hnode⟩
    · exact h'
    · exact mem_subterms_iff.mpr (.inr ⟨child, hchild, ih child hchild hnode⟩)

end

end Expr

/-! ### Values -/

namespace Value

/-- Whether a value has no parts. -/
def isAtom : Value → Bool
  | .list _ | .record _ | .just _ | .ok _ | .error _ | .response _ _ _ | .lambda _ _ _
  | .errorRail _ => false
  | _ => true

/-- The values that a value is directly made of; those of a lambda are what it captured. -/
def parts : Value → List Value
  | .list items => items
  | .record fields | .lambda _ fields _ => fields.map Prod.snd
  | .just value | .ok value | .error value | .errorRail value | .response _ _ value => [value]
  | _ => []

mutual

/-- The values that stand in a value, itself included. -/
def subvalues (value : Value) : List Value :=
  value :: match value with
  | .list items => subvaluesOfList items
  | .record fields | .lambda _ fields _ => subvaluesOfFields fields
  | .just value | .ok value | .error value | .errorRail value | .response _ _ value =>
    subvalues value
  | _ => []

/-- The values that stand in values. -/
def subvaluesOfList : List Value → List Value
  | [] => []
  | value :: rest => subvalues value ++ subvaluesOfList rest

/-- The values that stand in fields. -/
def subvaluesOfFields : List (String × Value) → List Value
  | [] => []
  | (_, value) :: rest => subvalues value ++ subvaluesOfFields rest

end

/-- Whether all that stands in a value meets a predicate. -/
def Every (p : Value → Prop) (value : Value) : Prop :=
  ∀ inner ∈ value.subvalues, p inner

variable {p : Value → Prop} {v inner : Value}

theorem mem_subvaluesOfList {items : List Value} :
  inner ∈ subvaluesOfList items ↔ ∃ item ∈ items, inner ∈ item.subvalues
  := by
  induction items with
  | nil => simp [subvaluesOfList]
  | cons item rest ih => simp [subvaluesOfList, ih]

theorem mem_subvaluesOfFields {fields : List (String × Value)} :
  inner ∈ subvaluesOfFields fields ↔ ∃ value ∈ fields.map Prod.snd, inner ∈ value.subvalues
  := by
  induction fields with
  | nil => simp [subvaluesOfFields]
  | cons field rest ih => simp [subvaluesOfFields, ih]

/-- What stands in a value is the value or stands in a direct part of it. -/
theorem mem_subvalues_iff :
  inner ∈ v.subvalues ↔ inner = v ∨ ∃ part ∈ v.parts, inner ∈ part.subvalues
  := by
  cases v <;> simp [subvalues, parts, mem_subvaluesOfList, mem_subvaluesOfFields]

theorem every_iff :
  v.Every p ↔ p v ∧ ∀ part ∈ v.parts, part.Every p
  := by
  simp only [Every, mem_subvalues_iff (v := v)]
  constructor
  · intro h
    exact ⟨h v (.inl rfl), fun part hpart inner hinner =>
      h inner (.inr ⟨part, hpart, hinner⟩)⟩
  · rintro ⟨hself, hparts⟩ inner (rfl | ⟨part, hpart, hinner⟩)
    · exact hself
    · exact hparts part hpart inner hinner

theorem Every.self (h : v.Every p) :
  p v
  := (every_iff.mp h).1

theorem sizeOf_part_lt (h : inner ∈ v.parts) :
  sizeOf inner < sizeOf v
  := by
  cases v with
  | list items =>
    have : sizeOf inner < sizeOf items := List.sizeOf_lt_of_mem h
    simp
    omega
  | record fields | lambda _ fields _ =>
    have := sizeOf_snd_lt h
    simp
    omega
  | just | ok | error | errorRail =>
    obtain rfl := List.mem_singleton.mp h
    simp
  | response =>
    obtain rfl := List.mem_singleton.mp h
    simp only [response.sizeOf_spec]
    omega
  | _ => cases h

/-- Induction over the values that a value is directly made of. -/
theorem induction_parts {q : Value → Prop}
    (step : ∀ v : Value, (∀ part ∈ v.parts, q part) → q v) (v : Value) :
  q v
  := step v fun part h =>
    have := sizeOf_part_lt h
    induction_parts step part
termination_by sizeOf v

end Value

end LiveExpr
