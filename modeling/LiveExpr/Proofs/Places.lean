import LiveExpr.Proofs.Library
import Mathlib.Algebra.Order.Group.Multiset

/-!
# Places

The places of an expression are its nodes with the patterns, parameters and steps of
pipelines that belong to them. An expression that calls the library reports each of them at
most as often as it stands there, as each function of the interpreter divides the places
that it is given among those that it calls. Main statement: `Frame.reports_places`.
-/

namespace LiveExpr

namespace Expr

/-- The identifiers that a node has beside its own. -/
def marks : Expr → List NodeId
  | .lambda _ parameters _ => parameters.map Prod.fst
  | .matchCases _ _ cases => cases.flatMap fun case => case.1.ids
  | .apply _ _ _ (.inPipe pipe) _ => [pipe]
  | _ => []

theorem ownIds_eq (e : Expr) :
  e.ownIds = e.id :: e.marks
  := by
  cases e with
  | apply _ _ _ position _ => cases position <;> rfl
  | _ => rfl

/-- The places of an expression, at every depth. -/
def places (e : Expr) : Multiset Place :=
  (e.subterms : Multiset Expr).bind fun n => .node n ::ₘ (n.marks.map Place.mark : List Place)

/-- The places of an expression without itself. -/
def innerPlaces (e : Expr) : Multiset Place :=
  (e.marks.map Place.mark : List Place) + (e.children : Multiset Expr).bind places

theorem places_eq (e : Expr) :
  e.places = .node e ::ₘ e.innerPlaces
  := by
  rw [places, subterms_eq, ← Multiset.cons_coe, Multiset.cons_bind, ← Multiset.coe_bind,
    Multiset.bind_assoc, Multiset.cons_add]
  rfl

theorem places_map_id (e : Expr) :
  e.places.map Place.id = (e.ids : Multiset NodeId)
  := by
  rw [places, Multiset.map_bind, ids, ← Multiset.coe_bind]
  congr
  funext n
  have hmarks : Place.id ∘ Place.mark = fun id => id := rfl
  rw [ownIds_eq, Multiset.map_cons, Multiset.map_coe, List.map_map, hmarks, List.map_id']
  rfl

theorem node_mem_places {e n : Expr} :
  Place.node n ∈ e.places ↔ n ∈ e.subterms
  := by
  simp [places]

end Expr

/-- The reports of a pattern are about its own nodes, each at most once. -/
theorem Matching.check_places (toplevel : ToplevelId) (value : Value) (pattern : Pattern) :
  ((check toplevel value pattern).reports.map Prod.fst).Subperm pattern.ids
  := by
  fun_induction check toplevel value pattern with
  | case13 _ id _ _ _ _ _ _ _ ih =>
    rw [Pattern.ids, Pattern.idsOfList, Pattern.idsOfList, List.append_nil]
    exact (List.subperm_cons id).mpr ih
  | case14 _ id _ _ _ _ _ _ _ ih =>
    rw [Pattern.ids, Pattern.idsOfList, Pattern.idsOfList, List.append_nil, List.map_append]
    exact (List.perm_append_singleton id _).subperm.trans ((List.subperm_cons id).mpr ih)
  | _ => simp [literal, refuted, Pattern.ids]

namespace Interpreter

open Interpreter.Frame (after thereafter takenCalls nodeCalls callsOf reportsOf)

/-- The places of cases: those of the patterns and of the bodies. -/
def casePlaces (cases : List (Pattern × Expr)) : Multiset Place :=
  (cases : Multiset (Pattern × Expr)).bind fun case =>
    (case.1.ids.map Place.mark : List Place) + case.2.places

/-- The places that a function of the interpreter is given to report. -/
def Activation.places : Activation → Multiset Place
  | eval _ _ e | lookAt _ _ e => e.places
  | evalNode _ _ e => e.innerPlaces
  | evalArgs _ _ es | evalItems _ _ es => (es : Multiset Expr).bind Expr.places
  | evalFields _ _ fields => (fields.map Prod.snd : Multiset Expr).bind Expr.places
  | evalCases _ _ _ cases _ => casePlaces cases
  | _ => 0

/-- The places that calls are given to report. -/
def placesOf (calls : List Frame) : Multiset Place :=
  (calls : Multiset Frame).bind fun t => t.activation.places

section

variable {α : Type} {run : Run α} {w : World} {places : Multiset Place}

theorem placesOf_nil_le :
  placesOf [] ≤ places
  := Multiset.zero_le _

theorem placesOf_cons {t : Frame} {calls : List Frame} :
  placesOf (t :: calls) = t.activation.places + placesOf calls
  := by
  rw [placesOf, ← Multiset.cons_coe, Multiset.cons_bind]
  rfl

theorem placesOf_single {t : Frame} :
  placesOf [t] = t.activation.places
  := placesOf_cons.trans (add_zero _)

theorem placesOf_after_le {next : α → World → List Frame}
    (h : ∀ value w', placesOf (next value w') ≤ places) :
  placesOf (after run w next) ≤ places
  := by
  rw [after]
  split
  · exact h _ _
  · exact placesOf_nil_le

/-- A call, and those that follow it. -/
theorem placesOf_then_le {t : Frame} {next : α → World → List Frame}
    (h : ∀ value w', placesOf (next value w') ≤ places) :
  placesOf (t :: after run w next) ≤ t.activation.places + places
  := by
  rw [placesOf_cons]
  exact add_le_add le_rfl (placesOf_after_le h)

theorem thereafter_le {next : α → World → Multiset Report}
    (h : ∀ value w', (next value w').map Prod.fst ≤ places) :
  (thereafter run w next).map Prod.fst ≤ places
  := by
  rw [thereafter]
  split
  · exact h _ _
  · exact Multiset.zero_le _

end

theorem casePlaces_cons {pattern : Pattern} {body : Expr} {rest : List (Pattern × Expr)} :
  casePlaces ((pattern, body) :: rest)
    = (pattern.ids.map Place.mark : List Place) + body.places + casePlaces rest
  := by
  rw [casePlaces, ← Multiset.cons_coe, Multiset.cons_bind]
  rfl

theorem innerPlaces_matchCases {id : NodeId} {scrutinee : Expr}
    {cases : List (Pattern × Expr)} :
  (Expr.matchCases id scrutinee cases).innerPlaces = scrutinee.places + casePlaces cases
  := by
  have hcases : casePlaces cases
      = ((cases.flatMap fun case => case.1.ids).map Place.mark : List Place)
        + (cases.map Prod.snd : Multiset Expr).bind Expr.places := by
    induction cases with
    | nil => rfl
    | cons case rest ih =>
      rw [casePlaces_cons, ih, List.flatMap_cons, List.map_append, ← Multiset.coe_add,
        List.map_cons, ← Multiset.cons_coe, Multiset.cons_bind]
      abel
  rw [hcases, Expr.innerPlaces, Expr.marks, Expr.children, ← Multiset.cons_coe,
    Multiset.cons_bind]
  abel

theorem patternReports_le {executed : Bool} {toplevel : ToplevelId} {value : Value}
    {pattern : Pattern} :
  (Frame.patternReports executed (Matching.check toplevel value pattern).reports).map Prod.fst
    ≤ (pattern.ids.map Place.mark : List Place)
  := by
  have hids := Multiset.coe_le.mpr (Matching.check_places toplevel value pattern)
  have hmarks := Multiset.map_le_map (f := Place.mark) hids
  rw [Multiset.map_coe, Multiset.map_coe, List.map_map] at hmarks
  rwa [Frame.patternReports, Multiset.map_coe, List.map_map]

/-! ### Expressions -/

/-- Whether a function reports, itself and in its calls, places that it is given, each at
most as often as it is given. -/
def Activation.Divides (fuel : Nat) (w : World) (activation : Activation) : Prop :=
  (reportsOf fuel w activation).map Prod.fst + placesOf (callsOf fuel w activation)
    ≤ activation.places

variable {fuel : Nat} {c : Context} {scope : Scope} {w : World}

/-- Nothing is reported beside the calls. -/
theorem Activation.divides_of_calls {activation : Activation}
    (hown : reportsOf fuel w activation = 0)
    (hcalls : placesOf (callsOf fuel w activation) ≤ activation.places) :
  activation.Divides fuel w
  := by
  rwa [Divides, hown, Multiset.map_zero, zero_add]

theorem takenCalls_places {other taken : Expr} :
  placesOf (takenCalls fuel c scope other taken w) ≤ other.places + taken.places
  := placesOf_then_le fun _ _ => placesOf_single.le

theorem conditional_divides {id : NodeId} {condition thenCase elseCase : Expr} :
  Activation.Divides fuel w (.evalNode c scope (.conditional id condition thenCase elseCase))
  := by
  apply Activation.divides_of_calls rfl
  have hplaces : (Expr.conditional id condition thenCase elseCase).innerPlaces
      = condition.places + (thenCase.places + elseCase.places) := by
    simp [Expr.innerPlaces, Expr.marks, Expr.children, ← Multiset.cons_coe]
  rw [Activation.places, hplaces]
  apply placesOf_then_le
  intro condition w'
  split
  · exact takenCalls_places
  · exact takenCalls_places
  · split
    · exact placesOf_then_le fun _ _ => placesOf_single.le
    · exact placesOf_then_le fun _ _ => placesOf_single.le

theorem featureFlag_divides {id : NodeId} {condition oldCode newCode : Expr} :
  Activation.Divides fuel w (.evalNode c scope (.featureFlag id condition oldCode newCode))
  := by
  apply Activation.divides_of_calls rfl
  have hplaces : (Expr.featureFlag id condition oldCode newCode).innerPlaces
      = condition.places + (oldCode.places + newCode.places) := by
    simp [Expr.innerPlaces, Expr.marks, Expr.children, ← Multiset.cons_coe]
  rw [Activation.places, hplaces]
  apply placesOf_then_le
  intro condition w'
  split
  · exact takenCalls_places
  · rw [add_comm]
    exact takenCalls_places

theorem apply_divides {id : NodeId} {callee : Expr} {args : List Expr}
    {position : PipePosition} {railUse : RailUse} :
  Activation.Divides fuel w (.evalNode c scope (.apply id callee args position railUse))
  := by
  have hcalls : placesOf (nodeCalls fuel c scope w (.apply id callee args position railUse))
      ≤ callee.places + (args : Multiset Expr).bind Expr.places := by
    apply placesOf_then_le
    intro callee w'
    rw [← add_zero (Multiset.bind _ _)]
    apply placesOf_then_le
    exact fun _ _ => placesOf_single.le
  have hchildren : (callee :: args : Multiset Expr).bind Expr.places
      = callee.places + (args : Multiset Expr).bind Expr.places := by
    rw [← Multiset.cons_coe, Multiset.cons_bind]
  rw [← hchildren] at hcalls
  refine add_le_add ?_ hcalls
  cases position with
  | notInPipe => exact Multiset.zero_le _
  | inPipe pipe =>
    apply thereafter_le
    intro _ _
    apply thereafter_le
    intro _ _
    apply thereafter_le
    exact fun _ _ => le_rfl

theorem constructor_divides {id : NodeId} {name : String} {args : List Expr} :
  Activation.Divides fuel w (.evalNode c scope (.constructor id name args))
  := by
  apply Activation.divides_of_calls rfl
  rw [callsOf]
  rcases Frame.constructor_calls with hcalls | ⟨arg, harg, hcalls⟩
  · rw [hcalls]
    exact placesOf_nil_le
  · have hargs : arg.places ≤ (args : Multiset Expr).bind Expr.places :=
      Multiset.le_bind _ harg
    rw [hcalls, placesOf_single]
    exact hargs.trans (Multiset.le_add_left _ _)

theorem evalNode_divides {e : Expr} :
  Activation.Divides fuel w (.evalNode c scope e)
  := by
  cases e with
  | blank | integer | float | bool | null | string | character | functionValue
  | «variable» => exact Multiset.zero_le _
  | letIn id name value body =>
    apply Activation.divides_of_calls rfl
    have hplaces : (Expr.letIn id name value body).innerPlaces = value.places + body.places := by
      simp [Expr.innerPlaces, Expr.marks, Expr.children, ← Multiset.cons_coe]
    rw [Activation.places, hplaces]
    apply placesOf_then_le
    intro value w'
    split
    · exact placesOf_nil_le
    · exact placesOf_single.le
  | list id items =>
    apply Activation.divides_of_calls rfl
    exact placesOf_single.le.trans (Multiset.le_add_left _ _)
  | record id fields =>
    apply Activation.divides_of_calls rfl
    exact placesOf_single.le.trans (Multiset.le_add_left _ _)
  | fieldAccess id object field =>
    apply Activation.divides_of_calls rfl
    have hplaces : (Expr.fieldAccess id object field).innerPlaces = object.places := by
      simp [Expr.innerPlaces, Expr.marks, Expr.children]
    rw [Activation.places, hplaces]
    exact placesOf_single.le
  | lambda id parameters body =>
    refine add_le_add ?_ (Multiset.zero_le _)
    rw [reportsOf]
    split
    · rw [Frame.parameterReports, Multiset.map_coe, List.map_map, Expr.marks, List.map_map]
      rfl
    · exact Multiset.zero_le _
  | conditional id condition thenCase elseCase => exact conditional_divides
  | featureFlag id condition oldCode newCode => exact featureFlag_divides
  | constructor id name args => exact constructor_divides
  | matchCases id scrutinee cases =>
    apply Activation.divides_of_calls rfl
    rw [Activation.places, innerPlaces_matchCases]
    exact placesOf_then_le fun _ _ => placesOf_single.le
  | apply id callee args position railUse => exact apply_divides

theorem evalCases_divides {value : Value} {cases : List (Pattern × Expr)}
    {chosen : Option Value} :
  Activation.Divides fuel w (.evalCases c scope value cases chosen)
  := by
  cases cases with
  | nil => exact Multiset.zero_le _
  | cons case rest =>
    obtain ⟨pattern, body⟩ := case
    rw [Activation.Divides, Activation.places, casePlaces_cons, add_assoc]
    apply add_le_add
    · rw [reportsOf]
      split
      · exact thereafter_le fun _ _ => patternReports_le
      · exact thereafter_le fun _ _ => patternReports_le
    · rw [callsOf]
      split
      · apply placesOf_then_le
        intro _ _
        apply placesOf_after_le
        exact fun _ _ => placesOf_single.le
      · apply placesOf_then_le
        intro _ _
        apply placesOf_after_le
        exact fun _ _ => placesOf_single.le

/-! ### Frames -/

variable {registry : Registry} {root : Expr}

/-- Where functions are applied and called, nothing is reported. -/
theorem divides_of_values {activation : Activation}
    (ha : (library registry root).Admits activation) (hcode : activation.isCode = false) :
  activation.Divides fuel w
  := by
  have hplaces {activation : Activation} (hcode : activation.isCode = false) :
      activation.places = 0 := by
    cases activation <;> first | rfl | cases hcode
  have hown : reportsOf fuel w activation = 0 := by
    cases activation <;> first | rfl | cases hcode
  apply Activation.divides_of_calls hown
  rw [placesOf, Multiset.bind_congr fun t ht => hplaces (callsOf_values ha hcode t ht),
    Multiset.bind_zero]
  exact Multiset.zero_le _

theorem divides_of_admits {activation : Activation}
    (ha : (library registry root).Admits activation) :
  activation.Divides fuel w
  := by
  cases activation with
  | eval c scope e =>
    have hown : (reportsOf fuel w (.eval c scope e)).map Prod.fst ≤ {.node e} :=
      thereafter_le fun _ _ => le_rfl
    rw [Activation.Divides, Activation.places, Expr.places_eq]
    exact add_le_add hown placesOf_single.le
  | lookAt c scope e => exact Activation.divides_of_calls rfl placesOf_single.le
  | evalNode c scope e => exact evalNode_divides
  | evalArgs c scope es =>
    cases es with
    | nil => exact Multiset.zero_le _
    | cons e rest =>
      apply Activation.divides_of_calls rfl
      rw [Activation.places, ← Multiset.cons_coe, Multiset.cons_bind]
      exact placesOf_then_le fun _ _ => placesOf_single.le
  | evalItems c scope es =>
    cases es with
    | nil => exact Multiset.zero_le _
    | cons e rest =>
      apply Activation.divides_of_calls rfl
      rw [Activation.places, ← Multiset.cons_coe, Multiset.cons_bind]
      apply placesOf_then_le
      intro value w'
      split
      · exact placesOf_nil_le
      · exact placesOf_single.le
  | evalFields c scope fields =>
    cases fields with
    | nil => exact Multiset.zero_le _
    | cons field rest =>
      obtain ⟨name, e⟩ := field
      apply Activation.divides_of_calls rfl
      rw [Activation.places, List.map_cons, ← Multiset.cons_coe, Multiset.cons_bind, callsOf]
      split
      · exact placesOf_single.le.trans (Multiset.le_add_left _ _)
      · exact placesOf_then_le fun _ _ => placesOf_single.le
  | evalCases c scope value cases chosen => exact evalCases_divides
  | _ => exact divides_of_values ha rfl

theorem bind_reports_le {calls : List Frame}
    (h : ∀ t ∈ calls, t.reports.map Prod.fst ≤ t.activation.places) :
  ((calls : Multiset Frame).bind Frame.reports).map Prod.fst ≤ placesOf calls
  := by
  induction calls with
  | nil => exact Multiset.zero_le _
  | cons t rest ih =>
    obtain ⟨ht, hrest⟩ := List.forall_mem_cons.mp h
    rw [placesOf_cons, ← Multiset.cons_coe, Multiset.cons_bind, Multiset.map_add]
    exact add_le_add ht (ih hrest)

/-- A frame of an expression that calls the library reports places that it is given, each
at most as often as it is given. -/
theorem Frame.reports_places {s : Frame}
    (ha : (library registry root).Admits s.activation)
    (hw : (library registry root).world s.world) :
  s.reports.map Prod.fst ≤ s.activation.places
  := by
  obtain ⟨fuel, activation, w⟩ := s
  induction fuel generalizing activation w with
  | zero => exact Multiset.zero_le _
  | succ fuel ih =>
    have hcalls : ∀ t ∈ callsOf fuel w activation,
        t.reports.map Prod.fst ≤ t.activation.places := by
      intro t ht
      obtain ⟨ha', hw'⟩ :=
        callsOf_covered (library_isLawful.kept fuel) library_isLawful hw ha t ht
      obtain ⟨hfuel, -⟩ := Frame.descends_of_mem_calls (s := ⟨fuel + 1, activation, w⟩) ht
      obtain ⟨fuel', activation', w'⟩ := t
      obtain rfl := Nat.succ.inj hfuel
      exact ih activation' w' ha' hw'
    rw [Frame.reports_eq, Multiset.map_add]
    exact (add_le_add le_rfl (bind_reports_le hcalls)).trans (divides_of_admits ha)

end Interpreter

end LiveExpr
