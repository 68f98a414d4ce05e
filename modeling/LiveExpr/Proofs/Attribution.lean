import LiveExpr.Eval.Execution
import LiveExpr.Proofs.Kinds

/-!
# Attribution of faults

Where the fake values of a run come from. A source names a node and the toplevel at work. The
node stands in the code of that toplevel, or else in the body of a lambda: such a body is
evaluated in the toplevel that applies the lambda, which need not be the one that it was
written in. Main statement: `isFrom_guarded`.
-/

namespace LiveExpr

namespace Value

/-- The source of a fake value. -/
def source? : Value → Option Source
  | .incomplete source | .failure source _ => some source
  | _ => none

theorem source?_of_isFake {value : Value} (h : value.isFake = false) :
  value.source? = none
  := by
  cases value <;> first | rfl | cases h

/-- Whether a value, if it is a fake one made by a node, is made at one of some places. -/
def IsFrom (place : ToplevelId → NodeId → Prop) (value : Value) : Prop :=
  ∀ toplevel id, value.source? = some (.node toplevel id) → place toplevel id

end Value

namespace Expr

/-- An identifier occurs in an expression if it is one of a node of it. -/
theorem mem_ids_iff {e : Expr} {i : NodeId} :
  i ∈ e.ids ↔ ∃ node ∈ e.subterms, i ∈ node.ownIds
  := List.mem_flatMap

theorem ids_subset {e node : Expr} (h : node ∈ e.subterms) :
  node.ids ⊆ e.ids
  := by
  intro i hi
  obtain ⟨inner, hinner, hi⟩ := mem_ids_iff.mp hi
  exact mem_ids_iff.mpr ⟨inner, mem_subterms_trans h hinner, hi⟩

end Expr

namespace Interpreter

open Run (Keeps)

/-- The code of a program: the main expression is the code of its toplevel, the body of a
function that of the function's. -/
inductive IsCode (c : Context) (e : Expr) : ToplevelId → Expr → Prop where
  | main : IsCode c e c.toplevel e
  | body {name : FunctionName} {f : Function} {origin : Origin} {toplevel : ToplevelId}
      {body : Expr} (hf : Assoc.get? name c.registry = some f)
      (hbody : f.implementation = .written origin toplevel body) : IsCode c e toplevel body

/-- Whether a node stands in the code of a toplevel. -/
def StandsIn (c : Context) (e : Expr) (toplevel : ToplevelId) (i : NodeId) : Prop :=
  ∃ code, IsCode c e toplevel code ∧ i ∈ code.ids

/-- Whether a node stands in the body of a lambda, of the program or of a value in scope. -/
inductive StandsInLambda (c : Context) (scope : Scope) (e : Expr) (i : NodeId) : Prop where
  | ofCode {toplevel : ToplevelId} {code : Expr} {id : NodeId}
      {parameters : List (NodeId × String)} {body : Expr} (hcode : IsCode c e toplevel code)
      (hlambda : .lambda id parameters body ∈ code.subterms) (hi : i ∈ body.ids)
  | ofScope {pair : String × Value} {parameters : List (NodeId × String)} {captured : Scope}
      {body : Expr} (hpair : pair ∈ scope)
      (hlambda : .lambda parameters captured body ∈ pair.2.subvalues) (hi : i ∈ body.ids)

/-- The places where fake values are made: a node of the code of a toplevel, or a node of the
body of a lambda in any toplevel of the program. -/
def IsPlace (c : Context) (scope : Scope) (e : Expr) (toplevel : ToplevelId) (i : NodeId) :
    Prop :=
  StandsIn c e toplevel i
    ∨ (∃ code, IsCode c e toplevel code) ∧ StandsInLambda c scope e i

/-- Whether a fake value is made at a place, and the body of a lambda is one of those of the
program or in scope. -/
def IsPlaced (c : Context) (scope : Scope) (e : Expr) (value : Value) : Prop :=
  value.IsFrom (IsPlace c scope e)
    ∧ ∀ parameters captured body, value = .lambda parameters captured body →
      ∀ i ∈ body.ids, StandsInLambda c scope e i

/-- Whether in a world the recorded results, and what was reported since another world, have
only fake values made at places. -/
def HasPlaced (c : Context) (scope : Scope) (e : Expr) (w w' : World) : Prop :=
  (∀ site hash value, w'.store.load? site hash = some value →
      value.Every (IsPlaced c scope e))
    ∧ ∃ events, w'.log = events ++ w.log ∧ ∀ entry ∈ events, ∀ executed id value,
      entry.2 = .report executed id value → value.Every (IsPlaced c scope e)

/-- The regime of runs of a program from a world, in which all fake values are made at
places. -/
def attribution (c : Context) (scope : Scope) (e : Expr) (w : World) : Regime where
  context c' := c'.registry = c.registry ∧ ∃ code, IsCode c e c'.toplevel code
  entered c' f _ := (c'.registry = c.registry ∧ ∃ code, IsCode c e c'.toplevel code)
    ∧ ∃ name, Assoc.get? name c.registry = some f
  node toplevel node := (∀ i ∈ node.ownIds, IsPlace c scope e toplevel i)
    ∧ ∀ id parameters body, node = .lambda id parameters body →
      ∀ i ∈ body.ids, StandsInLambda c scope e i
  place := IsPlace c scope e
  kind := Value.Every (IsPlaced c scope e)
  bound := Value.Every (IsPlaced c scope e)
  world := HasPlaced c scope e w
  faults := True

variable {fs : List Function} {c : Context} {scope : Scope} {e : Expr} {w : World}
  {fuel : Nat}

/-! ### Values and code -/

theorem isPlaced_of_ne {value : Value} (hsource : value.source? = none)
    (hlambda : ∀ parameters captured body, value ≠ .lambda parameters captured body) :
  IsPlaced c scope e value
  := by
  constructor
  · intro toplevel id h
    rw [hsource] at h
    cases h
  · exact fun _ _ _ h => absurd h (hlambda _ _ _)

theorem allowsBuilding_isPlaced :
  Value.AllowsBuilding (IsPlaced c scope e)
  where
  plain _ hfake hcallable := by
    apply isPlaced_of_ne (Value.source?_of_isFake hfake)
    rintro _ _ _ rfl
    cases hcallable
  list _ := isPlaced_of_ne rfl nofun
  record _ := isPlaced_of_ne rfl nofun
  just _ := isPlaced_of_ne rfl nofun
  ok _ := isPlaced_of_ne rfl nofun
  error _ := isPlaced_of_ne rfl nofun
  rail _ := isPlaced_of_ne rfl nofun
  option _ _ := isPlaced_of_ne rfl nofun
  insert _ _ := isPlaced_of_ne rfl nofun

theorem isPlaced_incomplete {toplevel : ToplevelId} {id : NodeId}
    (h : IsPlace c scope e toplevel id) :
  IsPlaced c scope e (.incomplete (.node toplevel id))
  := by
  refine ⟨?_, nofun⟩
  rintro _ _ ⟨⟩
  exact h

theorem isPlaced_failure {toplevel : ToplevelId} {id : NodeId} {message : String}
    (h : IsPlace c scope e toplevel id) :
  IsPlaced c scope e (.failure (.node toplevel id) message)
  := by
  refine ⟨?_, nofun⟩
  rintro _ _ ⟨⟩
  exact h

/-- The code of a toplevel may be run there. -/
theorem every_of_isCode {toplevel : ToplevelId} {code : Expr} (h : IsCode c e toplevel code) :
  code.Every ((attribution c scope e w).node toplevel)
  := by
  intro node hnode
  constructor
  · exact fun i hi => .inl ⟨code, h, Expr.mem_ids_iff.mpr ⟨node, hnode, hi⟩⟩
  · rintro id parameters body rfl i hi
    exact .ofCode h hnode hi

/-- The body of a lambda may be run in any toplevel of the program. -/
theorem every_of_lambda {toplevel : ToplevelId} {code body : Expr}
    (h : IsCode c e toplevel code) (hbody : ∀ i ∈ body.ids, StandsInLambda c scope e i) :
  body.Every ((attribution c scope e w).node toplevel)
  := by
  intro node hnode
  constructor
  · exact fun i hi => .inr ⟨⟨code, h⟩, hbody i (Expr.mem_ids_iff.mpr ⟨node, hnode, hi⟩)⟩
  · rintro id parameters inner rfl i hi
    have hinner : inner ∈ (Expr.lambda id parameters inner).subterms :=
      Expr.mem_subterms_iff.mpr
        (.inr ⟨inner, List.mem_singleton.mpr rfl, Expr.mem_subterms_iff.mpr (.inl rfl)⟩)
    exact hbody i (Expr.ids_subset (Expr.mem_subterms_trans hnode hinner) hi)

theorem isPlace_id {toplevel : ToplevelId} {node : Expr}
    (h : (attribution c scope e w).node toplevel node) :
  IsPlace c scope e toplevel node.id
  := by
  apply h.1
  cases node with
  | apply id callee args position railUse =>
    cases position <;> exact List.mem_cons_self
  | _ => exact List.mem_cons_self

/-! ### Worlds -/

theorem HasPlaced.step {w' w'' : World} (h : HasPlaced c scope e w w') {c' : Context}
    {event : Event} (hlog : w''.log = (c', event) :: w'.log)
    (hevent : ∀ executed id value, event = .report executed id value →
      value.Every (IsPlaced c scope e))
    (hresults : ∀ site hash value, w''.store.load? site hash = some value →
      w'.store.load? site hash = some value ∨ value.Every (IsPlaced c scope e)) :
  HasPlaced c scope e w w''
  := by
  obtain ⟨hstore, events, hevents, hreports⟩ := h
  constructor
  · intro site hash value hvalue
    rcases hresults site hash value hvalue with hvalue | hvalue
    · exact hstore site hash value hvalue
    · exact hvalue
  · refine ⟨(c', event) :: events, by rw [hlog, hevents, List.cons_append], ?_⟩
    exact List.forall_mem_cons.mpr ⟨hevent, hreports⟩

variable {c' : Context} {site : CallSite} {args : List Value}

theorem report_hasPlaced {executed : Bool} {id : NodeId} {value : Value}
    (hvalue : value.Every (IsPlaced c scope e)) :
  Keeps (HasPlaced c scope e w) True (fun _ => True) (Run.report c' executed id value)
  := by
  apply Keeps.report
  · intro w' hw'
    apply hw'.step rfl
    · rintro _ _ _ ⟨⟩
      exact hvalue
    · intro site hash found hfound
      rw [← hfound]
      exact .inl TraceStore.load?_report.symm
  · exact fun _ _ _ => trivial

theorem enter_hasPlaced {toplevel : ToplevelId} :
  Keeps (HasPlaced c scope e w) True (fun _ => True) (Run.enter c' toplevel)
  := by
  intro w' hw'
  refine ⟨hw'.step rfl nofun fun site hash found hfound => ?_, trivial⟩
  rw [← hfound]
  exact .inl TraceStore.load?_enter.symm

theorem load_hasPlaced :
  Keeps (HasPlaced c scope e w) True
    (fun found => ∀ value, found = some value → value.Every (IsPlaced c scope e))
    (Run.load c' site args)
  := by
  apply Keeps.load nofun
  intro w' hash hw'
  exact ⟨hw'.step rfl nofun fun _ _ _ => .inl, hw'.1 site hash⟩

theorem record_hasPlaced {value : Value} (hvalue : value.Every (IsPlaced c scope e)) :
  Keeps (HasPlaced c scope e w) True (fun _ => True) (Run.record c' site args value)
  := by
  apply Keeps.record
  intro w' hash hw'
  apply hw'.step rfl (by rintro _ _ _ ⟨⟩)
  intro site' hash' found hfound
  dsimp only at hfound
  rw [TraceStore.load?_record] at hfound
  split at hfound
  · obtain rfl := Option.some.inj hfound
    exact .inr hvalue
  · exact .inl hfound

/-! ### Runs -/

theorem attribution_isLawful (hfs : ∀ f ∈ fs, f.isBuiltin = false)
    (hc : c.registry = Stdlib.registry.addAll fs) :
  (attribution c scope e w).IsLawful
  where
  toClosedValues := allowsBuilding_isPlaced.closedValues isPlaced_incomplete isPlaced_failure
  id := isPlace_id
  pattern hnode case hcase i hi := by
    apply hnode.1
    exact List.mem_cons_of_mem _ (List.mem_flatMap.mpr ⟨case, hcase, hi⟩)
  parameter hnode parameter hparameter := by
    apply hnode.1
    exact List.mem_cons_of_mem _ (List.mem_map_of_mem hparameter)
  named _ := Value.every_of_isAtom rfl (isPlaced_of_ne rfl nofun)
  lambda hcode hscope := by
    refine Value.every_lambda.mpr ⟨⟨nofun, ?_⟩, hscope⟩
    rintro _ _ _ ⟨⟩
    exact hcode.self.2 _ _ _ rfl
  captured hlambda := (Value.every_lambda.mp hlambda).2
  applied hcontext hlambda := by
    obtain ⟨-, code, hcode⟩ := hcontext
    exact every_of_lambda hcode (hlambda.self.2 _ _ _ rfl)
  lookAside hcontext := hcontext
  enters hcontext _ hf _ := ⟨hcontext, _, hcontext.1 ▸ hf⟩
  inside hentered := hentered.1
  inToplevel hentered hbody := by
    obtain ⟨⟨hregistry, -⟩, name, hf⟩ := hentered
    have hcode : IsCode c e _ _ := .body hf hbody
    exact ⟨⟨hregistry, _, hcode⟩, every_of_isCode hcode⟩
  builtin hentered hb hargs hreal := by
    obtain ⟨-, name, hf⟩ := hentered
    rw [hc] at hf
    have hmem := Stdlib.mem_contents_of_builtin hfs hf hb
    exact allowsBuilding_isPlaced.contents_stay hmem hb hargs hreal
  report _ _ := report_hasPlaced
  enter _ := enter_hasPlaced
  load _ := load_hasPlaced
  invoke _ _ w' hw' := ⟨hw'.step rfl nofun fun _ _ _ => .inl, trivial⟩
  record _ _ _ := record_hasPlaced
  body _ _ _ heval := by
    apply carryOutBody_keeps enter_hasPlaced load_hasPlaced fun _ => record_hasPlaced
    exact heval.mono (fun hfaults => hfaults) fun _ => Value.AllowsBuilding.every_offRail

/-- Every fake value made by a node, at any depth of the value of a program and of what the
program reports, is made in a toplevel of the program by a node of its code, or of the body
of a lambda. -/
theorem isFrom_guarded (hfs : ∀ f ∈ fs, f.isBuiltin = false)
    (hc : c.registry = Stdlib.registry.addAll fs)
    (hscope : scope.All (Value.Every (Value.IsFrom fun _ _ => False)))
    (hempty : ∀ site hash, w.store.load? site hash = none) {value : Value} {w' : World}
    (hrun : Execution.guarded (c.source e.id) (eval fuel c scope e) w = (.done value, w')) :
  value.Every (Value.IsFrom (IsPlace c scope e))
    ∧ ∃ events, w'.log = events ++ w.log ∧ ∀ entry ∈ events, ∀ executed id value,
      entry.2 = .report executed id value → value.Every (Value.IsFrom (IsPlace c scope e))
  := by
  have hlawful : (attribution c scope e w).IsLawful := attribution_isLawful hfs hc
  have hcode : e.Every ((attribution c scope e w).node c.toplevel) := every_of_isCode .main
  have hbound : scope.All (Value.Every (IsPlaced c scope e)) := by
    intro pair hpair inner hinner
    constructor
    · intro toplevel id hsource
      exact (hscope pair hpair inner hinner toplevel id hsource).elim
    · rintro parameters captured body rfl i hi
      exact .ofScope hpair hinner hi
  have hworld : HasPlaced c scope e w w := by
    refine ⟨fun site hash value hvalue => ?_, [], rfl, List.forall_mem_nil _⟩
    rw [hempty] at hvalue
    cases hvalue
  have hkeeps : Keeps (HasPlaced c scope e w) True (Value.Every (IsPlaced c scope e))
      (Execution.guarded (c.source e.id) (eval fuel c scope e)) := by
    have heval := (hlawful.kept fuel).eval ⟨⟨rfl, e, .main⟩, hbound, hcode⟩
    apply Keeps.bind (Keeps.caught heval)
    intro result hresult
    split
    · exact Keeps.done (hresult _ rfl)
    · exact Keeps.done (Value.every_of_isAtom rfl (isPlaced_failure (isPlace_id hcode.self)))
  obtain ⟨⟨-, events, hlog, hreports⟩, hvalue⟩ := hkeeps w hworld
  rw [hrun] at hlog hvalue
  refine ⟨fun inner hinner => (hvalue inner hinner).1, events, hlog, ?_⟩
  intro entry hentry executed id value hevent inner hinner
  exact (hreports entry hentry executed id value hevent inner hinner).1

/-- Applies a variable. -/
def applying : Expr :=
  .apply 21 (.variable 22 "f") [] .notInPipe .noRail

/-- A function that applies what it is given. -/
def runIt : Function where
  name := .user "run"
  parameters := [⟨"f", .function [] .any, ""⟩]
  returnType := .any
  description := "Applies a function"
  previewability := .pure
  deprecation := .current
  implementation := .written .user 20 applying

/-- The context of a program with that function. -/
def withRunIt : Context :=
  .start .real 1 0 (Stdlib.registry.addAll [runIt]) []

/-- Hands over a lambda whose body is a hole. -/
def handing : Expr :=
  .apply 1 (.functionValue 2 runIt.name) [.lambda 3 [] (.blank 4)] .notInPipe .noRail

theorem eq_of_isCode_handing {toplevel : ToplevelId} {code : Expr}
    (h : IsCode withRunIt handing toplevel code) :
  toplevel = 0 ∧ code = handing ∨ toplevel = 20 ∧ code = applying
  := by
  cases h with
  | main => exact .inl ⟨rfl, rfl⟩
  | body hf hbody =>
    rcases Stdlib.mem_of_get?_addAll hf with hmem | hmem
    · obtain rfl := List.mem_singleton.mp hmem
      cases hbody
      exact .inr ⟨rfl, rfl⟩
    · obtain ⟨b, hb⟩ := Stdlib.exists_builtin_of_mem hmem
      cases hb.symm.trans hbody

/-- A hole in the main expression is blamed on the function that comes upon it, though all
nodes of the program are distinct. -/
theorem not_standsIn_handing :
  (∃ w', Execution.guarded (withRunIt.source handing.id) (eval 20 withRunIt [] handing)
      (.fresh ⟨0, 0⟩) = (.done (.incomplete (.node 20 4)), w'))
    ∧ (∀ toplevel code, IsCode withRunIt handing toplevel code →
      code = handing ∨ code = applying)
    ∧ (handing.ids ++ applying.ids).Nodup
    ∧ ¬ StandsIn withRunIt handing 20 4
  := by
  refine ⟨⟨_, rfl⟩, ?_, by decide, ?_⟩
  · intro toplevel code hcode
    exact (eq_of_isCode_handing hcode).imp And.right And.right
  · rintro ⟨code, hcode, hi⟩
    rcases eq_of_isCode_handing hcode with ⟨htoplevel, -⟩ | ⟨-, rfl⟩
    · exact absurd htoplevel (by decide)
    · exact absurd hi (by decide)

/-- The hole stands in the body of the lambda, and is blamed on the toplevel at work. -/
theorem isFrom_guarded_handing :
  (∃ w', Execution.guarded (withRunIt.source handing.id) (eval 20 withRunIt [] handing)
      (.fresh ⟨0, 0⟩) = (.done (.incomplete (.node 20 4)), w'))
    ∧ (Value.incomplete (.node 20 4)).Every (Value.IsFrom (IsPlace withRunIt [] handing))
  := by
  have hfs : ∀ f ∈ [runIt], f.isBuiltin = false := by simp [runIt, Function.isBuiltin]
  have hscope : Fields.All (Value.Every (Value.IsFrom fun _ _ => False)) ([] : Scope) :=
    Fields.All.nil
  have hempty : ∀ site hash, (World.fresh ⟨0, 0⟩).store.load? site hash = none :=
    fun _ _ => rfl
  have hrun : ∃ w', Execution.guarded (withRunIt.source handing.id)
      (eval 20 withRunIt [] handing) (.fresh ⟨0, 0⟩)
        = (.done (.incomplete (.node 20 4)), w') := ⟨_, rfl⟩
  refine ⟨hrun, ?_⟩
  obtain ⟨w', hrun⟩ := hrun
  exact (isFrom_guarded hfs rfl hscope hempty hrun).1

end Interpreter

end LiveExpr
