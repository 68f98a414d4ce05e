import LiveExpr.Codec.Developer
import LiveExpr.Codec.EndUser
import LiveExpr.Codec.Hashable

/-!
# Passwords are not shown

Values that are the same but for the bytes of passwords have the same texts for
developers and for end users, the same machine JSON, the same hashable representation and
the same hash, wherever the passwords stand.  Main statement:
`SameButSecrets.rendered_eq`.
-/

namespace LiveExpr

namespace Value

mutual

/-- Whether two values are the same but for the bytes of passwords, at any depth, the
variables that lambdas captured included. -/
inductive SameButSecrets : Value → Value → Prop where
  | refl (value : Value) : SameButSecrets value value
  | password (secret other : List UInt8) : SameButSecrets (.password secret) (.password other)
  | list {items others : List Value} (h : ItemsSameButSecrets items others) :
    SameButSecrets (.list items) (.list others)
  | record {fields others : List (String × Value)} (h : FieldsSameButSecrets fields others) :
    SameButSecrets (.record fields) (.record others)
  | just {value other : Value} (h : SameButSecrets value other) :
    SameButSecrets (.just value) (.just other)
  | ok {value other : Value} (h : SameButSecrets value other) :
    SameButSecrets (.ok value) (.ok other)
  | error {value other : Value} (h : SameButSecrets value other) :
    SameButSecrets (.error value) (.error other)
  | errorRail {value other : Value} (h : SameButSecrets value other) :
    SameButSecrets (.errorRail value) (.errorRail other)
  | response (code : Int) (headers : List (String × String)) {body other : Value}
      (h : SameButSecrets body other) :
    SameButSecrets (.response code headers body) (.response code headers other)
  | lambda (parameters : List (NodeId × String)) {scope other : List (String × Value)}
      (h : FieldsSameButSecrets scope other) (body : Expr) :
    SameButSecrets (.lambda parameters scope body) (.lambda parameters other body)

/-- Whether items are pairwise the same but for the bytes of passwords. -/
inductive ItemsSameButSecrets : List Value → List Value → Prop where
  | nil : ItemsSameButSecrets [] []
  | cons {item other : Value} {rest others : List Value} (h : SameButSecrets item other)
      (hrest : ItemsSameButSecrets rest others) :
    ItemsSameButSecrets (item :: rest) (other :: others)

/-- Whether fields of the same names are the same but for the bytes of passwords. -/
inductive FieldsSameButSecrets : List (String × Value) → List (String × Value) → Prop where
  | nil : FieldsSameButSecrets [] []
  | cons (name : String) {value other : Value} {rest others : List (String × Value)}
      (h : SameButSecrets value other) (hrest : FieldsSameButSecrets rest others) :
    FieldsSameButSecrets ((name, value) :: rest) ((name, other) :: others)

end

end Value

open Value (SameButSecrets ItemsSameButSecrets FieldsSameButSecrets)

/-! ### Texts for developers -/

namespace Developer

mutual

theorem render_eq : ∀ {value other : Value} (indent : Nat), SameButSecrets value other →
    render indent value = render indent other
  | _, _, _, .refl _ => rfl
  | _, _, _, .password _ _ => by rw [render, render]
  | _, _, _, .list .nil => rfl
  | _, _, indent, .list (.cons h hrest) => by
      rw [render, render, render_eq (indent + 2) h, renderItems_eq (indent + 2) hrest]
  | _, _, _, .record .nil => rfl
  | _, _, indent, .record (.cons name h hrest) => by
      rw [render, render, render_eq (indent + 2) h, renderFields_eq (indent + 2) hrest]
  | _, _, indent, .just h | _, _, indent, .ok h | _, _, indent, .error h
  | _, _, indent, .errorRail h | _, _, indent, .response _ _ h => by
      rw [render, render, render_eq (indent + 2) h]
  | _, _, _, .lambda _ _ _ => by rw [render, render]

theorem renderItems_eq : ∀ {items others : List Value} (indent : Nat),
    ItemsSameButSecrets items others → renderItems indent items = renderItems indent others
  | _, _, _, .nil => rfl
  | _, _, indent, .cons h hrest => by
      rw [renderItems, renderItems, render_eq indent h, renderItems_eq indent hrest]

theorem renderFields_eq : ∀ {fields others : List (String × Value)} (indent : Nat),
    FieldsSameButSecrets fields others →
      renderFields indent fields = renderFields indent others
  | _, _, _, .nil => rfl
  | _, _, indent, .cons name h hrest => by
      rw [renderFields, renderFields, render_eq indent h, renderFields_eq indent hrest]

end

end Developer

/-! ### The hashable representation -/

namespace Hashable

mutual

theorem render_eq : ∀ {value other : Value} (indent : Nat), SameButSecrets value other →
    render indent value = render indent other
  | _, _, _, .refl _ => rfl
  | _, _, _, .password _ _ => by rw [render, render]
  | _, _, _, .list .nil => rfl
  | _, _, indent, .list (.cons h hrest) => by
      rw [render, render, render_eq (indent + 2) h, renderItems_eq (indent + 2) hrest]
  | _, _, _, .record .nil => rfl
  | _, _, indent, .record (.cons name h hrest) => by
      rw [render, render, render_eq (indent + 2) h, renderFields_eq (indent + 2) hrest]
  | _, _, indent, .just h | _, _, indent, .ok h | _, _, indent, .error h
  | _, _, indent, .errorRail h | _, _, indent, .response _ _ h => by
      rw [render, render, render_eq (indent + 2) h]
  | _, _, _, .lambda _ _ _ => by rw [render, render]

theorem renderItems_eq : ∀ {items others : List Value} (indent : Nat),
    ItemsSameButSecrets items others → renderItems indent items = renderItems indent others
  | _, _, _, .nil => rfl
  | _, _, indent, .cons h hrest => by
      rw [renderItems, renderItems, render_eq indent h, renderItems_eq indent hrest]

theorem renderFields_eq : ∀ {fields others : List (String × Value)} (indent : Nat),
    FieldsSameButSecrets fields others →
      renderFields indent fields = renderFields indent others
  | _, _, _, .nil => rfl
  | _, _, indent, .cons name h hrest => by
      rw [renderFields, renderFields, render_eq indent h, renderFields_eq indent hrest]

end

/-- Bytes that stand for themselves are the same on both sides. -/
theorem bytes_eq {value other : Value} (verbatim : Bool) (h : SameButSecrets value other) :
  bytes verbatim value = bytes verbatim other
  := by
  have hrender := render_eq 0 h
  cases h with
  | refl => rfl
  | _ => exact congrArg (fun text : String => text.toUTF8.toList) hrender

theorem flatMap_bytes_eq : ∀ {args others : List Value}, ItemsSameButSecrets args others →
    args.flatMap (bytes true) = others.flatMap (bytes true)
  | _, _, .nil => rfl
  | _, _, .cons h hrest => by
      rw [List.flatMap_cons, List.flatMap_cons, bytes_eq true h, flatMap_bytes_eq hrest]

/-- Arguments that are the same but for the bytes of passwords have one hash, or fail
alike. -/
theorem hash_eq (version : UInt32) {args others : List Value}
    (h : ItemsSameButSecrets args others) :
  hash version args = hash version others
  := by
  rw [hash, hash, argumentBytes, argumentBytes, flatMap_bytes_eq h, bytes_eq false (.list h)]

end Hashable

/-! ### Machine JSON and texts for end users -/

namespace MachineJson

mutual

theorem toJson_eq : ∀ {value other : Value}, SameButSecrets value other →
    toJson value = toJson other
  | _, _, .refl _ => rfl
  | _, _, .password _ _ => by rw [toJson, toJson]
  | _, _, .list h => by rw [toJson, toJson, itemsToJson_eq h]
  | _, _, .record h => by rw [toJson, toJson, fieldsToJson_eq h]
  | _, _, .just h | _, _, .ok h | _, _, .error h | _, _, .errorRail h
  | _, _, .response _ _ h => by rw [toJson, toJson, toJson_eq h]
  | _, _, .lambda _ _ _ => by rw [toJson, toJson]

theorem itemsToJson_eq : ∀ {items others : List Value}, ItemsSameButSecrets items others →
    itemsToJson items = itemsToJson others
  | _, _, .nil => rfl
  | _, _, .cons h hrest => by
      rw [itemsToJson, itemsToJson, toJson_eq h, itemsToJson_eq hrest]

theorem fieldsToJson_eq : ∀ {fields others : List (String × Value)},
    FieldsSameButSecrets fields others → fieldsToJson fields = fieldsToJson others
  | _, _, .nil => rfl
  | _, _, .cons name h hrest => by
      rw [fieldsToJson, fieldsToJson, toJson_eq h, fieldsToJson_eq hrest]

end

theorem write_eq {value other : Value} (h : SameButSecrets value other) :
  write value = write other
  := by
  rw [write, write, toJson_eq h]

end MachineJson

namespace EndUser

/-- No password is quoted, and no other value turns on one. -/
theorem isQuoted_eq {value other : Value} (h : SameButSecrets value other) :
  isQuoted value = isQuoted other
  := by
  cases h <;> rfl

mutual

theorem write_eq : ∀ {value other : Value}, SameButSecrets value other →
    write value = write other
  | _, _, .refl _ => rfl
  | _, _, .password _ _ => by rw [write, write]
  | _, _, .list .nil => rfl
  | _, _, .list (.cons h hrest) => by
      rw [write, write, nested, nested, isQuoted_eq h, write_eq h, writeItems_eq hrest]
  | _, _, .record h => by rw [write, write, MachineJson.write_eq (.record h)]
  | _, _, .just h | _, _, .ok h | _, _, .error h | _, _, .errorRail h => by
      rw [write, write, write_eq h]
  | _, _, .response _ _ h => by
      rw [write, write, nested, nested, isQuoted_eq h, write_eq h]
  | _, _, .lambda _ _ _ => by rw [write, write]

theorem writeItems_eq : ∀ {items others : List Value}, ItemsSameButSecrets items others →
    writeItems items = writeItems others
  | _, _, .nil => rfl
  | _, _, .cons h hrest => by
      rw [writeItems, writeItems, nested, nested, isQuoted_eq h, write_eq h,
        writeItems_eq hrest]

end

end EndUser

/-! ### Two values -/

namespace Value

/-- Values that are the same but for the bytes of passwords are shown alike, and calls
with them have one hash under every version. -/
theorem SameButSecrets.rendered_eq {value other : Value} (h : SameButSecrets value other) :
  Developer.write value = Developer.write other
    ∧ EndUser.write value = EndUser.write other
    ∧ MachineJson.write value = MachineJson.write other
    ∧ (∀ verbatim, Hashable.bytes verbatim value = Hashable.bytes verbatim other)
    ∧ ∀ (version : UInt32) {args others : List Value}, ItemsSameButSecrets args others →
      Hashable.hash version (value :: args) = Hashable.hash version (other :: others)
  := by
  refine ⟨?_, EndUser.write_eq h, MachineJson.write_eq h, ?_, ?_⟩
  · exact Developer.render_eq 0 h
  · exact fun verbatim => Hashable.bytes_eq verbatim h
  · exact fun version _ _ hargs => Hashable.hash_eq version (.cons h hargs)

/-- A password in an option, in the body of a response on the error rail, and among the
variables of a lambda. -/
def keyring (secret : List UInt8) : Value :=
  .record [("keys", .list [.just (.password secret), .errorRail (.error (.password secret)),
      .response 200 [("a", "b")] (.ok (.password secret))]),
    ("use", .lambda [(1, "x")] [("key", .password secret)] (.variable 2 "key"))]

/-- Two of them are shown alike. -/
theorem rendered_eq_keyring :
  keyring [1] ≠ keyring [2, 3]
    ∧ Developer.write (keyring [1]) = Developer.write (keyring [2, 3])
    ∧ EndUser.write (keyring [1]) = EndUser.write (keyring [2, 3])
    ∧ MachineJson.write (keyring [1]) = MachineJson.write (keyring [2, 3])
    ∧ (∀ verbatim, Hashable.bytes verbatim (keyring [1])
      = Hashable.bytes verbatim (keyring [2, 3]))
    ∧ Hashable.hash 1 [keyring [1]] = Hashable.hash 1 [keyring [2, 3]]
  := by
  have hkey : SameButSecrets (.password [1]) (.password [2, 3]) := .password _ _
  have hkeys : ItemsSameButSecrets
      [.just (.password [1]), .errorRail (.error (.password [1])),
        .response 200 [("a", "b")] (.ok (.password [1]))]
      [.just (.password [2, 3]), .errorRail (.error (.password [2, 3])),
        .response 200 [("a", "b")] (.ok (.password [2, 3]))] :=
    .cons (.just hkey) (.cons (.errorRail (.error hkey)) (.cons (.response _ _ (.ok hkey)) .nil))
  have huse := SameButSecrets.lambda [(1, "x")] (.cons "key" hkey .nil) (.variable 2 "key")
  have hall : SameButSecrets (keyring [1]) (keyring [2, 3]) :=
    .record (.cons _ (.list hkeys) (.cons _ huse .nil))
  obtain ⟨hdeveloper, henduser, hmachine, hbytes, hhash⟩ := hall.rendered_eq
  refine ⟨?_, hdeveloper, henduser, hmachine, hbytes, hhash 1 .nil⟩
  simp [keyring]

end Value

end LiveExpr
