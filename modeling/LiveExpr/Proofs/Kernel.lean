import LiveExpr.Proofs.Keys

/-!
# The kernel of the keys

What the keys of version 1 forget about arguments without free text: the contents of
passwords, which function a function value is, and where an incomplete value comes from,
and nothing else.  Main statement: `argumentBytes_eq_iff`.
-/

namespace LiveExpr

namespace Value

mutual

/-- Whether a value holds no free text: it is made of integers, booleans, `null`,
identifiers, passwords, functions, incomplete values, options, results, the error rail
and lists. -/
def IsTextFree : Value → Prop
  | .int _ | .bool _ | .null | .uuid _ | .password _ | .named _ | .lambda _ _ _
  | .incomplete _ | .nothing => True
  | .just value | .ok value | .error value | .errorRail value => IsTextFree value
  | .list items => ItemsAreTextFree items
  | _ => False

/-- Whether the items of a list hold no free text. -/
def ItemsAreTextFree : List Value → Prop
  | [] => True
  | item :: rest => IsTextFree item ∧ ItemsAreTextFree rest

end

theorem itemsAreTextFree_iff {items : List Value} :
  ItemsAreTextFree items ↔ ∀ item ∈ items, item.IsTextFree
  := by
  induction items with
  | nil => simp [ItemsAreTextFree]
  | cons item rest ih => simp [ItemsAreTextFree, ih]

mutual

/-- A value in which one password stands for all, one function for all, and one
incomplete value for all. -/
def redacted : Value → Value
  | .password _ => .password []
  | .named _ | .lambda _ _ _ => .named (.user "")
  | .incomplete _ => .incomplete .unknown
  | .list items => .list (itemsRedacted items)
  | .record fields => .record (fieldsRedacted fields)
  | .response code headers body => .response code headers (redacted body)
  | .just value => .just (redacted value)
  | .ok value => .ok (redacted value)
  | .error value => .error (redacted value)
  | .errorRail value => .errorRail (redacted value)
  | value => value

/-- The redacted items of a list. -/
def itemsRedacted : List Value → List Value
  | [] => []
  | item :: rest => redacted item :: itemsRedacted rest

/-- The fields of a record with redacted values. -/
def fieldsRedacted : List (String × Value) → List (String × Value)
  | [] => []
  | (name, value) :: rest => (name, redacted value) :: fieldsRedacted rest

end

theorem itemsRedacted_eq_map (items : List Value) :
  itemsRedacted items = items.map redacted
  := by
  induction items with
  | nil => rw [itemsRedacted, List.map_nil]
  | cons item rest ih => rw [itemsRedacted, List.map_cons, ih]

mutual

/-- Redacted, a value without free text is told by its text. -/
theorem IsTextFree.isTellable : ∀ {value : Value}, value.IsTextFree →
    value.redacted.IsTellable
  | .int _, _ | .bool _, _ | .null, _ | .uuid _, _ | .nothing, _ => by
    simp [redacted, IsTellable]
  | .password _, _ | .named _, _ | .lambda _ _ _, _ | .incomplete _, _ => by
    simp [redacted, IsTellable]
  | .just value, h | .ok value, h | .error value, h | .errorRail value, h => by
    rw [IsTextFree] at h
    simpa [redacted] using h.isTellable
  | .list items, h => by
    rw [IsTextFree] at h
    simpa [redacted, IsTellable] using h.areTellable

theorem ItemsAreTextFree.areTellable : ∀ {items : List Value}, ItemsAreTextFree items →
    ItemsAreTellable (itemsRedacted items)
  | [], _ => trivial
  | _ :: _, h => ⟨h.1.isTellable, h.2.areTellable⟩

end

end Value

namespace Hashable

open Value (redacted itemsRedacted fieldsRedacted)

mutual

/-- The text of a value is that of the redacted value. -/
theorem render_redacted (indent : Nat) : ∀ value : Value,
    render indent value.redacted = render indent value
  | .list [] => by rw [redacted, itemsRedacted]
  | .list (item :: rest) => by
    rw [redacted, itemsRedacted, render, render, render_redacted _ item,
      renderItems_redacted _ rest]
  | .record [] => by rw [redacted, fieldsRedacted]
  | .record ((name, value) :: rest) => by
    rw [redacted, fieldsRedacted, render, render, render_redacted _ value,
      renderFields_redacted _ rest]
  | .response _ _ body => by rw [redacted, render, render, render_redacted _ body]
  | .just value | .ok value | .error value | .errorRail value => by
    rw [redacted, render, render, render_redacted _ value]
  | .password _ | .named _ | .lambda _ _ _ | .incomplete _ => by
    rw [redacted, render, render]
  | .int _ | .float _ | .bool _ | .null | .char _ | .str _ | .date _ | .uuid _ | .bytes _
  | .db _ | .nothing | .redirect _ | .failure _ _ => by
    rw [redacted]
    all_goals nofun

theorem renderItems_redacted (indent : Nat) : ∀ items : List Value,
    renderItems indent (itemsRedacted items) = renderItems indent items
  | [] => by rw [itemsRedacted]
  | item :: rest => by
    rw [itemsRedacted, renderItems, renderItems, render_redacted _ item,
      renderItems_redacted _ rest]

theorem renderFields_redacted (indent : Nat) : ∀ fields : List (String × Value),
    renderFields indent (fieldsRedacted fields) = renderFields indent fields
  | [] => by rw [fieldsRedacted]
  | (name, value) :: rest => by
    rw [fieldsRedacted, renderFields, renderFields, render_redacted _ value,
      renderFields_redacted _ rest]

end

/-- The bytes of arguments are those of the redacted arguments. -/
theorem argumentBytes_map_redacted (args : List Value) :
  argumentBytes 1 (args.map redacted) = argumentBytes 1 args
  := by
  have htext := render_redacted 0 (.list args)
  rw [redacted, Value.itemsRedacted_eq_map] at htext
  exact congrArg (fun text : String => Except.ok text.toUTF8.toList) htext

/-- Arguments without free text have the same bytes under version 1 exactly if they are
equal up to what passwords hold, which functions they are, and where incomplete values
come from. -/
theorem argumentBytes_eq_iff {a b : List Value} (ha : ∀ value ∈ a, value.IsTextFree)
    (hb : ∀ value ∈ b, value.IsTextFree) :
  ∃ x y, argumentBytes 1 a = .ok x ∧ argumentBytes 1 b = .ok y
    ∧ (x = y ↔ a.map redacted = b.map redacted)
  := by
  refine ⟨_, _, rfl, rfl, ?_⟩
  have htellable {items : List Value} (h : ∀ value ∈ items, value.IsTextFree) :
      Value.ItemsAreTellable (items.map redacted) := by
    rw [← Value.itemsRedacted_eq_map]
    exact (Value.itemsAreTextFree_iff.mpr h).areTellable
  constructor
  · intro h
    apply argumentBytes_inj_of_tellable (htellable ha) (htellable hb)
    rw [argumentBytes_map_redacted, argumentBytes_map_redacted]
    exact congrArg Except.ok h
  · intro h
    have hbytes := argumentBytes_map_redacted a
    rw [h, argumentBytes_map_redacted] at hbytes
    exact (Except.ok.inj hbytes).symm

/-- A password and a function in a list are not told from others, and an option of a list is
told from a list of options. -/
theorem argumentBytes_eq_redacted :
  argumentBytes 1
        [.just (.list [.password [1], .named (.user "f")]), .incomplete (.node 1 2)]
      = argumentBytes 1
        [.just (.list [.password [2], .lambda [] [] (.null 3)]), .incomplete .unknown]
    ∧ argumentBytes 1 [.just (.list [.password [1], .int (-5)])]
      ≠ argumentBytes 1 [.list [.just (.password [1]), .int (-5)]]
  := by
  constructor
  · have ha : ∀ value ∈ [Value.just (.list [.password [1], .named (.user "f")]),
        .incomplete (.node 1 2)], value.IsTextFree := by
      simp [Value.IsTextFree, Value.ItemsAreTextFree]
    have hb : ∀ value ∈ [Value.just (.list [.password [2], .lambda [] [] (.null 3)]),
        .incomplete .unknown], value.IsTextFree := by
      simp [Value.IsTextFree, Value.ItemsAreTextFree]
    obtain ⟨x, y, hx, hy, hiff⟩ := argumentBytes_eq_iff ha hb
    rw [hx, hy, hiff.mpr (by simp [redacted, itemsRedacted])]
  · have ha : ∀ value ∈ [Value.just (.list [.password [1], .int (-5)])],
        value.IsTextFree := by
      simp [Value.IsTextFree, Value.ItemsAreTextFree]
    have hb : ∀ value ∈ [Value.list [.just (.password [1]), .int (-5)]],
        value.IsTextFree := by
      simp [Value.IsTextFree, Value.ItemsAreTextFree]
    obtain ⟨x, y, hx, hy, hiff⟩ := argumentBytes_eq_iff ha hb
    rw [hx, hy]
    intro h
    have hlists := hiff.mp (Except.ok.inj h)
    simp [redacted] at hlists

end Hashable

end LiveExpr
