import LiveExpr.Eval.Execution
import LiveExpr.Proofs.TakenPath

/-!
# Live values

After the execution of an expression that calls the library and whose nodes are distinct,
the store shows of each node that was evaluated the value that it evaluated to, as executed
if the node lies on the path that was taken and as looked at otherwise, and nothing of any
other node. Main statement: `isShown_of_guarded`.
-/

namespace LiveExpr

/-- Where no key is set twice, look-up finds what stands in a map. -/
theorem Assoc.get?_eq_some_iff {κ α : Type} [DecidableEq κ] {map : Assoc κ α}
    (hkeys : (map.map Prod.fst).Nodup) {key : κ} {value : α} :
  get? key map = some value ↔ (key, value) ∈ map
  := by
  induction map with
  | nil => exact ⟨nofun, nofun⟩
  | cons pair rest ih =>
    obtain ⟨k, v⟩ := pair
    obtain ⟨hnotin, hrest⟩ := List.nodup_cons.mp hkeys
    rw [get?]
    split
    · next h =>
      subst h
      constructor
      · rintro ⟨⟩
        exact List.mem_cons_self
      · intro hmem
        rcases List.mem_cons.mp hmem with hpair | hmem
        · rw [(Prod.mk.inj hpair).2]
        · exact absurd (List.mem_map_of_mem hmem) hnotin
    · next h =>
      rw [ih hrest, List.mem_cons, Prod.mk.injEq]
      exact ⟨.inr, fun hmem => hmem.resolve_left fun hpair => h hpair.1.symm⟩

namespace Interpreter

open LiveExpr.Expr (IsOnPath)

namespace Frame

/-- The expression that a frame evaluates. -/
def evaluated? (s : Frame) : Option Expr :=
  match s.activation with
  | .eval _ _ e => some e
  | _ => none

/-- The expressions that are evaluated during a frame, once for each evaluation. -/
def evaluated (s : Frame) : List Expr :=
  s.reached.filterMap evaluated?

/-- Whether an expression is evaluated to a value during a frame. -/
def Gives (s : Frame) (e : Expr) (value : Value) : Prop :=
  ∃ t c scope w', s.Reaches t ∧ t.activation = .eval c scope e
    ∧ eval t.fuel c scope e t.world = (.done value, w')

/-- Whether live values are exactly those of the nodes of an expression that are evaluated
during a frame, each of them once. -/
structure IsShown (s : Frame) (root : Expr) (live : LiveValues) : Prop where
  once : s.evaluated.Nodup
  shown : ∀ t c scope n, s.Reaches t → t.activation = .eval c scope n →
    ∃ value w' executed, eval t.fuel c scope n t.world = (.done value, w')
      ∧ Assoc.get? n.id live = some ⟨value, executed⟩
      ∧ (executed = true ↔ IsOnPath s.Gives root n)
  missing : ∀ n ∈ root.subterms, n ∉ s.evaluated → Assoc.get? n.id live = none

/-- An expression is evaluated during a frame if the frame reaches an evaluation of it. -/
theorem mem_evaluated_iff {s : Frame} {e : Expr} :
  e ∈ s.evaluated ↔ ∃ t c scope, s.Reaches t ∧ t.activation = .eval c scope e
  := by
  simp only [evaluated, List.mem_filterMap, mem_reached_iff]
  constructor
  · rintro ⟨t, ht, he⟩
    obtain ⟨fuel, activation, w⟩ := t
    cases activation with
    | eval c scope e' =>
      obtain rfl := Option.some.inj he
      exact ⟨_, c, scope, ht, rfl⟩
    | _ => cases he
  · rintro ⟨⟨fuel, activation, w⟩, c, scope, ht, rfl⟩
    exact ⟨_, ht, rfl⟩

theorem mem_thereafter {α β : Type} {run : Run α} {w : World} {next : α → World → Multiset β}
    {b : β} (h : b ∈ thereafter run w next) :
  ∃ value w', b ∈ next value w'
  := by
  rw [thereafter] at h
  split at h
  · exact ⟨_, _, h⟩
  · exact absurd h (Multiset.notMem_zero b)

theorem node_notMem_patternReports {executed : Bool} {reports : List (NodeId × Value)}
    {n : Expr} {shown : LiveValue} :
  (.node n, shown) ∉ patternReports executed reports
  := by
  simp [patternReports]

/-- Only the evaluation of a node reports it. -/
theorem evaluated?_of_mem_ownReports {t : Frame} {n : Expr} {shown : LiveValue}
    (h : (.node n, shown) ∈ t.ownReports) :
  t.evaluated? = some n
  := by
  obtain ⟨_ | fuel, activation, w⟩ := t
  · exact absurd h (Multiset.notMem_zero _)
  · rw [ownReports] at h
    unfold reportsOf at h
    split at h
    · obtain ⟨_, _, h⟩ := mem_thereafter h
      obtain ⟨⟨⟩, -⟩ := Prod.mk.inj (Multiset.mem_singleton.mp h)
      rfl
    · split at h
      · simp [parameterReports] at h
      · exact absurd h (Multiset.notMem_zero _)
    · obtain ⟨_, _, h⟩ := mem_thereafter h
      obtain ⟨_, _, h⟩ := mem_thereafter h
      obtain ⟨_, _, h⟩ := mem_thereafter h
      obtain ⟨⟨⟩, -⟩ := Prod.mk.inj (Multiset.mem_singleton.mp h)
    · dsimp only at h
      split at h
      · obtain ⟨_, _, h⟩ := mem_thereafter h
        exact absurd h node_notMem_patternReports
      · obtain ⟨_, _, h⟩ := mem_thereafter h
        exact absurd h node_notMem_patternReports
    · exact absurd h (Multiset.notMem_zero _)

/-- The evaluation of a node that ends with a value reports the node with it. -/
theorem mem_ownReports_of_done {t : Frame} {c : Context} {scope : Scope} {n : Expr}
    {value : Value} {w' : World} (ht : t.activation = .eval c scope n)
    (hrun : eval t.fuel c scope n t.world = (.done value, w')) :
  (.node n, ⟨value, c.onPath⟩) ∈ t.ownReports
  := by
  obtain ⟨_ | fuel, activation, w⟩ := t
  · cases hrun
  · subst ht
    rw [eval] at hrun
    obtain ⟨value, w₁, hnode, hrun⟩ := Run.bind_eq_done hrun
    obtain ⟨_, w₂, -, ⟨⟩⟩ := Run.bind_eq_done hrun
    rw [ownReports, reportsOf, thereafter, hnode]
    exact Multiset.mem_singleton_self _

end Frame

/-! ### Runs -/

variable {registry : Registry} {root : Expr} {s t : Frame} {c : Context} {scope : Scope}

section

variable (ha : (library registry root).Admits s.activation)
variable (hw : (library registry root).world s.world) (hends : s.Ends)
include ha hw hends

/-- All evaluations that are reached end with a value. -/
theorem done_of_reaches (h : s.Reaches t) {n : Expr} (ht : t.activation = .eval c scope n) :
  ∃ value w', eval t.fuel c scope n t.world = (.done value, w')
  := by
  obtain ⟨ha', hw'⟩ := library_isLawful.reached h ha hw
  have hended := (h.ends hw.1.isMemory).2 hends
  obtain ⟨fuel, activation, w⟩ := t
  subst ht
  obtain ⟨-, hmeets⟩ := (library_isLawful.kept fuel).eval ha' w hw'
  change (eval fuel c scope n w).1 ≠ .outOfFuel at hended
  generalize eval fuel c scope n w = ending at hmeets hended
  obtain ⟨value | reason | _, w'⟩ := ending
  · exact ⟨value, w', rfl⟩
  · exact hmeets.elim
  · exact absurd rfl hended

/-- Each evaluation that is reached reports its node. -/
theorem evaluated_le (frames : List Frame) (hframes : ∀ t ∈ frames, s.Reaches t) :
  ((frames.filterMap Frame.evaluated?).map Place.node : Multiset Place)
    ≤ ((frames : Multiset Frame).bind Frame.ownReports).map Prod.fst
  := by
  induction frames with
  | nil => exact Multiset.zero_le _
  | cons t rest ih =>
    obtain ⟨ht, hrest⟩ := List.forall_mem_cons.mp hframes
    rw [← Multiset.cons_coe, Multiset.cons_bind, Multiset.map_add]
    cases hnode : t.evaluated? with
    | none =>
      rw [List.filterMap_cons_none hnode]
      exact (ih hrest).trans (Multiset.le_add_left _ _)
    | some n =>
      obtain ⟨fuel, activation, w⟩ := t
      cases activation with
      | eval c scope e =>
        obtain rfl := Option.some.inj hnode
        obtain ⟨value, w', hrun⟩ := done_of_reaches ha hw hends ht rfl
        have hmem := Frame.mem_ownReports_of_done rfl hrun
        rw [List.filterMap_cons_some hnode, List.map_cons, ← Multiset.cons_coe,
          ← Multiset.singleton_add]
        apply add_le_add _ (ih hrest)
        exact Multiset.singleton_le.mpr (Multiset.mem_map_of_mem Prod.fst hmem)
      | _ => cases hnode

end

section

variable (hroot : s.activation = .eval c scope root) (hids : root.ids.Nodup)
variable (ha : (library registry root).Admits s.activation)
variable (hw : (library registry root).world s.world)
include hroot hids ha hw

/-- No identifier is reported twice. -/
theorem nodup_reports :
  ((s.reports.map Prod.fst).map Place.id).Nodup
  := by
  have hplaces := Multiset.map_le_map (f := Place.id) (Frame.reports_places ha hw)
  rw [hroot, Activation.places, Expr.places_map_id] at hplaces
  exact Multiset.nodup_of_le hplaces (Multiset.coe_nodup.mpr hids)

/-- The store shows what was reported, if nothing was reported before. -/
theorem exists_live (hfresh : s.world.reported = []) :
  ∃ content, s.leaves.store = .memory content
    ∧ ∀ id shown, Assoc.get? id content.live = some shown
      ↔ ∃ place, (place, shown) ∈ s.reports ∧ place.id = id
  := by
  have hreported : (s.leaves.reported : Multiset (NodeId × LiveValue))
      = s.reports.map Report.entry := by
    rw [s.reported_leaves hw.1.isMemory, hfresh]
    exact add_zero _
  have hkeys : (s.leaves.reported.map Prod.fst).Nodup := by
    have hnodup := nodup_reports hroot hids ha hw
    rw [Multiset.map_map] at hnodup
    rw [← Multiset.coe_nodup, ← Multiset.map_coe, hreported, Multiset.map_map]
    exact hnodup
  have hshows : s.leaves.Shows := by
    rw [hroot] at ha
    rw [Frame.leaves, hroot]
    exact ((library_isLawful.kept s.fuel).eval ha s.world hw).1.1
  obtain ⟨content, hstore, hlive⟩ := hshows
  refine ⟨content, hstore, fun id shown => ?_⟩
  rw [hlive, Assoc.get?_eq_some_iff hkeys, ← Multiset.mem_coe, hreported, Multiset.mem_map]
  constructor
  · rintro ⟨⟨place, _⟩, hmem, ⟨⟩⟩
    exact ⟨place, hmem, rfl⟩
  · rintro ⟨place, hmem, rfl⟩
    exact ⟨(place, shown), hmem, rfl⟩

/-- Nodes that are reported are evaluated. -/
theorem mem_evaluated_of_mem_reports {place : Place} {shown : LiveValue} {n : Expr}
    (hmem : (place, shown) ∈ s.reports) (hn : n ∈ root.subterms) (hid : place.id = n.id) :
  n ∈ s.evaluated
  := by
  have hnodup : (root.places.map Place.id).Nodup := by
    rw [Expr.places_map_id]
    exact Multiset.coe_nodup.mpr hids
  have hplaces := Frame.reports_places ha hw
  rw [hroot] at hplaces
  have hplace : place ∈ root.places :=
    Multiset.mem_of_le hplaces (Multiset.mem_map_of_mem Prod.fst hmem)
  obtain rfl : place = .node n :=
    Multiset.inj_on_of_nodup_map hnodup _ hplace _ (Expr.node_mem_places.mpr hn) hid
  obtain ⟨t, ht, hown⟩ := Frame.mem_reports_iff.mp hmem
  exact List.mem_filterMap.mpr
    ⟨t, Frame.mem_reached_iff.mpr ht, Frame.evaluated?_of_mem_ownReports hown⟩

variable (hends : s.Ends)
include hends

/-- No node is evaluated twice. -/
theorem nodup_evaluated :
  s.evaluated.Nodup
  := by
  have hle := evaluated_le ha hw hends s.reached fun _ => Frame.mem_reached_iff.mp
  have hnodes := Multiset.nodup_of_le hle (nodup_reports hroot hids ha hw).of_map
  exact (Multiset.coe_nodup.mp hnodes).of_map

/-- The live values of an expression that calls the library are exact, if nothing was
reported before. -/
theorem isShown_of_ends (hfresh : s.world.reported = []) (hpath : c.onPath = true) :
  ∃ content, s.leaves.store = .memory content ∧ s.IsShown root content.live
  := by
  obtain ⟨content, hstore, hlive⟩ := exists_live hroot hids ha hw hfresh
  have hreport {t : Frame} {c : Context} {scope : Scope} {n : Expr} {value : Value}
      {w' : World} (ht : s.Reaches t) (hactivation : t.activation = .eval c scope n)
      (hrun : eval t.fuel c scope n t.world = (.done value, w')) :
      Assoc.get? n.id content.live = some ⟨value, c.onPath⟩ := by
    have hmem := Frame.mem_ownReports_of_done hactivation hrun
    exact (hlive _ _).mpr ⟨.node n, Frame.mem_reports_iff.mpr ⟨t, ht, hmem⟩, rfl⟩
  have hunique (n : Expr) (value other : Value) (h : s.Gives n value)
      (h' : s.Gives n other) : other = value := by
    obtain ⟨t, c, scope, w', ht, hactivation, hrun⟩ := h
    obtain ⟨t', c', scope', w'', ht', hactivation', hrun'⟩ := h'
    have hsame := (hreport ht hactivation hrun).symm.trans (hreport ht' hactivation' hrun')
    exact (LiveValue.mk.inj (Option.some.inj hsame)).1.symm
  have hgives (t : Frame) (c : Context) (scope : Scope) (n : Expr) (ht : s.Reaches t)
      (hactivation : t.activation = .eval c scope n) :
      ∃ value w', eval t.fuel c scope n t.world = (.done value, w') ∧ s.Gives n value := by
    obtain ⟨value, w', hrun⟩ := done_of_reaches ha hw hends ht hactivation
    exact ⟨value, w', hrun, t, c, scope, w', ht, hactivation, hrun⟩
  have hon : s.activation.IsOn (IsOnPath s.Gives root) := by
    rw [hroot]
    exact ⟨fun _ => .root, fun _ => hpath⟩
  refine ⟨content, hstore, nodup_evaluated hroot hids ha hw hends, ?_, ?_⟩
  · intro t c' scope' n ht hactivation
    obtain ⟨value, w', hrun⟩ := done_of_reaches ha hw hends ht hactivation
    refine ⟨value, w', c'.onPath, hrun, hreport ht hactivation hrun, ?_⟩
    have hon := ht.isOn ha hw hids hunique hgives hon
    rw [hactivation] at hon
    exact hon
  · intro n hn hevaluated
    rw [Option.eq_none_iff_forall_ne_some]
    intro shown hshown
    obtain ⟨place, hmem, hid⟩ := (hlive _ _).mp hshown
    exact hevaluated (mem_evaluated_of_mem_reports hroot hids ha hw hmem hn hid)

end

/-- A guarded run that ends with a value leaves the world as the run does, which does not
lack fuel. -/
theorem ends_of_guarded {source : Source} {run : Run Value} {value : Value} {w w' : World}
    (h : Execution.guarded source run w = (.done value, w')) :
  (run w).1 ≠ .outOfFuel ∧ (run w).2 = w'
  := by
  obtain ⟨result, w₁, hcaught, hresult⟩ := Run.bind_eq_done h
  have hworld : w₁ = w' := by
    cases result <;> exact congrArg Prod.snd hresult
  rw [Run.caught] at hcaught
  split at hcaught
  · next hrun =>
    rw [hrun]
    exact ⟨by simp, (congrArg Prod.snd hcaught).trans hworld⟩
  · next hrun =>
    rw [hrun]
    exact ⟨by simp, (congrArg Prod.snd hcaught).trans hworld⟩
  · cases hcaught

/-- After an expression is executed on an empty store in memory, the live values are exact:
each of its nodes is evaluated at most once, one that is evaluated is shown with its value,
as executed if it lies on the path that was taken and only then, and no other is shown. The
nodes, patterns and steps of pipelines of the expression are distinct, it has no lambda and
names functions of the standard library only, and no function values are in scope. -/
theorem isShown_of_guarded {c : Context} (hpath : c.onPath = true) {e : Expr}
    (hids : e.ids.Nodup) (hcode : e.Every (Expr.CallsLibrary c.registry)) {scope : Scope}
    (hscope : scope.All (Value.Every fun value => value.callable? = none)) {fuel : Nat}
    {now : Timestamp} {value : Value} {w' : World}
    (hrun : Execution.guarded (c.source e.id) (eval fuel c scope e) (.fresh now)
      = (.done value, w')) :
  ∃ content, w'.store = .memory content
    ∧ Frame.IsShown ⟨fuel, .eval c scope e, .fresh now⟩ e content.live
  := by
  have ha : (library c.registry e).Admits (.eval c scope e) := by
    refine ⟨rfl, hscope.mono fun value hvalue inner hinner => ?_, fun n hn => ⟨hn, hcode n hn⟩⟩
    exact Value.callsLibrary_of_callable? (hvalue inner hinner)
  have hw : (library c.registry e).world (.fresh now) := by
    refine ⟨World.shows_fresh now, ?_⟩
    rintro _ _ _ ⟨⟩
  obtain ⟨hends, hworld⟩ := ends_of_guarded hrun
  rw [← hworld]
  let s : Frame := ⟨fuel, .eval c scope e, .fresh now⟩
  exact isShown_of_ends (s := s) rfl hids ha hw hends rfl hpath

/-- A condition that does not hold, and a sum in a pipeline. -/
def adding : Expr :=
  .conditional 1 (.bool 2 false) (.integer 3 1)
    (.apply 4 (.functionValue 5 (.stdlib "Int" "add" 0)) [.integer 6 2, .integer 7 3]
      (.inPipe 8) .noRail)

/-- The condition and the sum are shown as executed, the other branch as looked at. -/
theorem isShown_of_guarded_adding :
  ∃ w' content, Execution.guarded (.node 0 1)
      (eval 20 (.start .real 1 0 Stdlib.registry []) [] adding) (.fresh ⟨0, 0⟩)
        = (.done (.int 5), w')
    ∧ w'.store = .memory content
    ∧ Frame.IsShown
      ⟨20, .eval (.start .real 1 0 Stdlib.registry []) [] adding, .fresh ⟨0, 0⟩⟩ adding
      content.live
  := by
  have hcode : adding.Every (Expr.CallsLibrary Stdlib.registry) := by
    have hlibrary : Stdlib.registry.IsLibrary (.stdlib "Int" "add" 0) := by
      intro f hf
      have hmem : f ∈ [] ∨ f ∈ _ := Stdlib.mem_of_get?_addAll hf
      exact hmem.resolve_left List.not_mem_nil
    simpa [adding, Expr.Every, Expr.subterms, Expr.subtermsOfList, Expr.CallsLibrary]
      using hlibrary
  have hrun : ∃ w', Execution.guarded (.node 0 1)
      (eval 20 (.start .real 1 0 Stdlib.registry []) [] adding) (.fresh ⟨0, 0⟩)
        = (.done (.int 5), w') := ⟨_, rfl⟩
  obtain ⟨w', hrun⟩ := hrun
  obtain ⟨content, hshown⟩ := isShown_of_guarded rfl (by decide) hcode .nil hrun
  exact ⟨w', content, hrun, hshown⟩

end Interpreter

end LiveExpr
