import LiveExpr.Proofs.Regime

/-!
# Reached frames

Every frame that a run reaches keeps to a lawful regime of the run: what it is given is
admitted, and the world that it is entered in is as the regime says. Main statement:
`Regime.IsLawful.reached`.
-/

namespace LiveExpr.Interpreter

/-- Whether frames are given what a regime admits, in worlds as it says. -/
def Regime.Covers (r : Regime) (calls : List Frame) : Prop :=
  ∀ t ∈ calls, r.Admits t.activation ∧ r.world t.world

open Run (Keeps)
open Interpreter.Frame (after takenCalls nodeCalls callsOf)

variable {r : Regime} {fuel : Nat} {c : Context} {scope : Scope} {w : World}

namespace Regime.Covers

theorem nil :
  r.Covers []
  := List.forall_mem_nil _

theorem cons {activation : Activation} {calls : List Frame} (h : r.Admits activation)
    (hw : r.world w) (hcalls : r.Covers calls) :
  r.Covers (⟨fuel, activation, w⟩ :: calls)
  := List.forall_mem_cons.mpr ⟨⟨h, hw⟩, hcalls⟩

theorem single {activation : Activation} (h : r.Admits activation) (hw : r.world w) :
  r.Covers [⟨fuel, activation, w⟩]
  := cons h hw nil

/-- What follows a run has its value and the world that it leaves. -/
theorem after {α : Type} {run : Run α} {kind : α → Prop} {next : α → World → List Frame}
    (hrun : r.Keeps kind run) (hw : r.world w)
    (hnext : ∀ value w', kind value → r.world w' → r.Covers (next value w')) :
  r.Covers (Frame.after run w next)
  := by
  obtain ⟨hw', hv⟩ := hrun w hw
  rw [Frame.after]
  generalize run w = result at hw' hv
  obtain ⟨_ | _ | _, w'⟩ := result
  · exact hnext _ w' hv hw'
  · exact nil
  · exact nil

end Regime.Covers

open Regime (Covers)

/-! ### Expressions -/

theorem takenCalls_covered (hkept : r.KeptAt fuel) {other taken : Expr} (hw : r.world w)
    (hother : r.Admits (.lookAt c scope other)) (htaken : r.Admits (.eval c scope taken)) :
  r.Covers (takenCalls fuel c scope other taken w)
  := by
  apply Covers.cons hother hw
  apply Covers.after (hkept.lookAt hother) hw
  intro _ w' _ hw'
  exact .single htaken hw'

theorem conditional_covered (hkept : r.KeptAt fuel) (hw : r.world w) {id : NodeId}
    {condition thenCase elseCase : Expr}
    (he : r.Admits (.evalNode c scope (.conditional id condition thenCase elseCase))) :
  r.Covers (nodeCalls fuel c scope w (.conditional id condition thenCase elseCase))
  := by
  obtain ⟨hc, hs, hcode⟩ := he
  have hcondition : r.Admits (.eval c scope condition) :=
    ⟨hc, hs, hcode.child List.mem_cons_self⟩
  have hthen : r.Admits (.eval c scope thenCase) :=
    ⟨hc, hs, hcode.child (by simp [Expr.children])⟩
  have helse : r.Admits (.eval c scope elseCase) :=
    ⟨hc, hs, hcode.child (by simp [Expr.children])⟩
  apply Covers.cons hcondition hw
  apply Covers.after (hkept.eval hcondition) hw
  intro condition w' _ hw'
  split
  · exact takenCalls_covered hkept hw' hthen helse
  · exact takenCalls_covered hkept hw' hthen helse
  · have hlookElse : r.Admits (.lookAt c scope elseCase) := helse
    split
    · have hlookThen : r.Admits (.lookAt c scope thenCase) := hthen
      apply Covers.cons hlookThen hw'
      apply Covers.after (hkept.lookAt hlookThen) hw'
      intro _ w'' _ hw''
      exact .single hlookElse hw''
    · apply Covers.cons hthen hw'
      apply Covers.after (hkept.eval hthen) hw'
      intro _ w'' _ hw''
      exact .single hlookElse hw''

theorem nodeCalls_covered (hkept : r.KeptAt fuel) (h : r.IsLawful) (hw : r.world w) {e : Expr}
    (he : r.Admits (.evalNode c scope e)) :
  r.Covers (nodeCalls fuel c scope w e)
  := by
  have ⟨hc, hs, hcode⟩ := he
  cases e with
  | blank | integer | float | bool | null | string | character | functionValue
  | «variable» | lambda => exact .nil
  | list id items => exact .single ⟨hc, hs, fun _ => hcode.child⟩ hw
  | record id fields =>
    exact .single ⟨hc, hs, fun _ hfield => hcode.child (List.mem_map_of_mem hfield)⟩ hw
  | fieldAccess id object field => exact .single ⟨hc, hs, hcode.child List.mem_cons_self⟩ hw
  | conditional id condition thenCase elseCase => exact conditional_covered hkept hw he
  | letIn id name value body =>
    have hvalue : r.Admits (.eval c scope value) := ⟨hc, hs, hcode.child List.mem_cons_self⟩
    apply Covers.cons hvalue hw
    apply Covers.after (hkept.eval hvalue) hw
    intro value w' hv hw'
    split
    · exact .nil
    · next hrail =>
      refine .single ⟨hc, ?_, hcode.child (by simp [Expr.children])⟩ hw'
      split
      · exact hs
      · exact hs.insert (h.bind hv (by simpa using hrail))
  | featureFlag id condition oldCode newCode =>
    have hcondition : r.Admits (.eval c scope condition) :=
      ⟨hc, hs, hcode.child List.mem_cons_self⟩
    have hold : r.Admits (.eval c scope oldCode) :=
      ⟨hc, hs, hcode.child (by simp [Expr.children])⟩
    have hnew : r.Admits (.eval c scope newCode) :=
      ⟨hc, hs, hcode.child (by simp [Expr.children])⟩
    have hrun : Keeps r.world True r.kind (eval fuel c scope condition) :=
      (hkept.eval hcondition).mono (fun _ => trivial) fun _ hv => hv
    have hcaught : r.Keeps _ (Run.caught (eval fuel c scope condition)) := Keeps.caught hrun
    apply Covers.cons hcondition hw
    apply Covers.after hcaught hw
    intro condition w' _ hw'
    split
    · exact takenCalls_covered hkept hw' hold hnew
    · exact takenCalls_covered hkept hw' hnew hold
  | constructor id name args =>
    rcases Frame.constructor_calls with hcalls | ⟨arg, harg, hcalls⟩
    · rw [hcalls]
      exact .nil
    · rw [hcalls]
      exact .single ⟨hc, hs, hcode.child harg⟩ hw
  | matchCases id scrutinee cases =>
    have hscrutinee : r.Admits (.eval c scope scrutinee) :=
      ⟨hc, hs, hcode.child List.mem_cons_self⟩
    apply Covers.cons hscrutinee hw
    apply Covers.after (hkept.eval hscrutinee) hw
    intro value w' hv hw'
    exact .single (h.admits_cases he hv) hw'
  | apply id callee args position railUse =>
    have hcallee : r.Admits (.eval c scope callee) := ⟨hc, hs, hcode.child List.mem_cons_self⟩
    have hargs : r.Admits (.evalArgs c scope args) :=
      ⟨hc, hs, fun _ harg => hcode.child (List.mem_cons_of_mem _ harg)⟩
    apply Covers.cons hcallee hw
    apply Covers.after (hkept.eval hcallee) hw
    intro callee w' hcallee hw'
    apply Covers.cons hargs hw'
    apply Covers.after (hkept.evalArgs hargs) hw'
    intro values w'' hvalues hw''
    exact .single ⟨hc, h.id hcode.self, hcallee, hvalues⟩ hw''

theorem evalCases_covered (hkept : r.KeptAt fuel) (h : r.IsLawful) (hw : r.world w)
    {value : Value} {cases : List (Pattern × Expr)} {chosen : Option Value}
    (hcases : r.Admits (.evalCases c scope value cases chosen)) :
  r.Covers (callsOf fuel w (.evalCases c scope value cases chosen))
  := by
  obtain ⟨hc, hs, hcode, hv, hchosen⟩ := hcases
  cases cases with
  | nil => exact .nil
  | cons case rest =>
    obtain ⟨pattern, body⟩ := case
    obtain ⟨⟨hbody, hpattern⟩, hrest⟩ := List.forall_mem_cons.mp hcode
    obtain ⟨hbindings, hreports⟩ := h.check c.toplevel pattern hv hpattern
    have hbody' : r.Admits
        (.eval c ((Matching.check c.toplevel value pattern).extend scope) body) :=
      ⟨hc, hs.extend hbindings, hbody⟩
    have haside : false = true → c.onPath = true := nofun
    rw [callsOf]
    split
    · apply Covers.cons hbody' hw
      apply Covers.after (hkept.eval hbody') hw
      intro result w' hresult hw'
      apply Covers.after (reportPattern_keeps h hc (fun hpath => hpath) hreports) hw'
      intro _ w'' _ hw''
      exact .single ⟨hc, hs, hrest, hv, by rintro _ ⟨⟩; exact hresult⟩ hw''
    · have hlook : r.Admits
          (.lookAt c ((Matching.check c.toplevel value pattern).extend scope) body) := hbody'
      have haside : false = true → c.onPath = true := nofun
      apply Covers.cons hlook hw
      apply Covers.after (hkept.lookAt hlook) hw
      intro _ w' _ hw'
      apply Covers.after (reportPattern_keeps h hc haside hreports) hw'
      intro _ w'' _ hw''
      exact .single ⟨hc, hs, hrest, hv, hchosen⟩ hw''

/-! ### Calls -/

theorem applyCallable_covered (h : r.IsLawful) (hw : r.world w) {id : NodeId} {f : Callable}
    {args : List Value} {position : PipePosition} {railUse : RailUse}
    (happly : r.Admits (.applyCallable c id f args position railUse)) :
  r.Covers (callsOf fuel w (.applyCallable c id f args position railUse))
  := by
  obtain ⟨hc, hid, hf, hargs⟩ := happly
  cases f with
  | named name => exact .single ⟨hc, hid, hf, hargs⟩ hw
  | lambda parameters captured body =>
    rw [callsOf]
    split
    · exact .nil
    · next hgood =>
      split
      · exact .nil
      · exact .single ⟨hc, lambdaScope_bound h hf hargs hgood, h.applied hc hf⟩ hw

theorem call_covered (hw : r.world w) {name : FunctionName} {id : NodeId}
    {args : List Value} {position : PipePosition} {railUse : RailUse}
    (hcall : r.Admits (.call c name id args position railUse)) :
  r.Covers (callsOf fuel w (.call c name id args position railUse))
  := by
  obtain ⟨hc, hid, hname, hargs⟩ := hcall
  rw [callsOf]
  split
  · exact .nil
  · next hrails =>
    split
    · exact .nil
    · next f hf =>
      split
      · exact .nil
      · split
        · exact .nil
        · next hbad =>
          have hreal := Value.isFake_of_find? hrails hbad
          exact .single ⟨hc, hid, ⟨name, hname, hf⟩, hargs, hreal⟩ hw

theorem carryOut_covered (h : r.IsLawful) (hw : r.world w) {f : Function} {id : NodeId}
    {args : List Value} (hcarry : r.Admits (.carryOut c f id args)) :
  r.Covers (callsOf fuel w (.carryOut c f id args))
  := by
  obtain ⟨hc, hid, ⟨name, hname, hf⟩, hargs, hreal⟩ := hcarry
  rw [callsOf]
  split
  · next b hb => exact .single ⟨h.entered_builtin id hc hname hf hb, hb, hid, hargs, hreal⟩ hw
  · next hbody =>
    split
    · exact .nil
    · next hunder =>
      split
      · exact .nil
      · exact .single ⟨h.entered_body id hc hname hf hunder, ⟨_, hbody⟩, hargs, hreal⟩ hw

theorem carryOutBody_covered (h : r.IsLawful) (hw : r.world w) {f : Function}
    {toplevel : ToplevelId} {body : Expr} {site : CallSite} {args : List Value}
    (hcarry : r.Admits (.carryOutBody c f toplevel body site args)) :
  r.Covers (callsOf fuel w (.carryOutBody c f toplevel body site args))
  := by
  obtain ⟨hentered, ⟨origin, hbody⟩, hargs, hreal⟩ := hcarry
  obtain ⟨hc, hcode⟩ := h.inToplevel hentered hbody
  rw [callsOf]
  apply Covers.after (h.enter hentered) hw
  intro _ w' _ hw'
  apply Covers.after (loadIf_keeps (h.load (h.inside hentered)) (by rintro _ ⟨⟩)) hw'
  intro recorded w'' _ hw''
  dsimp only
  split
  · exact .nil
  · exact .single ⟨hc, bodyScope_bound h _ hargs hreal, hcode⟩ hw''

theorem carryOutBuiltin_covered (h : r.IsLawful) (hw : r.world w) {f : Function}
    {b : Builtin} {site : CallSite} {args : List Value}
    (hcarry : r.Admits (.carryOutBuiltin c f b site args)) :
  r.Covers (callsOf fuel w (.carryOutBuiltin c f b site args))
  := by
  obtain ⟨hentered, hb, hid, hargs, hreal⟩ := hcarry
  have hc := h.inside hentered
  apply Covers.after (loadIf_keeps (h.load hc) (by rintro _ ⟨⟩)) hw
  intro recorded w' _ hw'
  split
  · exact .nil
  · split
    · exact .nil
    · next himpure =>
      apply Covers.after (h.invoke hentered (by simpa using himpure)) hw'
      intro known w'' _ hw''
      exact .single ⟨hc, hid, h.builtin hentered hb hargs hreal⟩ hw''

theorem runSteps_covered (hkept : r.KeptAt fuel) (hw : r.world w) {caller : NodeId}
    {step : BuiltinStep} (hsteps : r.Admits (.runSteps c caller step)) :
  r.Covers (callsOf fuel w (.runSteps c caller step))
  := by
  obtain ⟨hc, hid, hstep⟩ := hsteps
  cases step with
  | finish | fail => exact .nil
  | apply f args position railUse next =>
    obtain ⟨hf, hargs, hnext⟩ := hstep
    have happly : r.Admits (.applyCallable c caller f args position railUse) :=
      ⟨hc, hid, hf, hargs⟩
    apply Covers.cons happly hw
    apply Covers.after (hkept.applyCallable happly) hw
    intro value w' hv hw'
    exact .single ⟨hc, hid, hnext value hv⟩ hw'

/-! ### Runs -/

/-- The calls of a function that keeps to a regime keep to it. -/
theorem callsOf_covered (hkept : r.KeptAt fuel) (h : r.IsLawful) (hw : r.world w)
    {activation : Activation} (ha : r.Admits activation) :
  r.Covers (callsOf fuel w activation)
  := by
  cases activation with
  | eval c scope e => exact .single ha hw
  | lookAt c scope e => exact .single ⟨h.lookAside ha.1, ha.2⟩ hw
  | evalNode c scope e => exact nodeCalls_covered hkept h hw ha
  | evalArgs c scope es =>
    cases es with
    | nil => exact .nil
    | cons e rest =>
      obtain ⟨hc, hs, hcode⟩ := ha
      obtain ⟨he, hrest⟩ := List.forall_mem_cons.mp hcode
      have he : r.Admits (.eval c scope e) := ⟨hc, hs, he⟩
      apply Covers.cons he hw
      apply Covers.after (hkept.eval he) hw
      intro _ w' _ hw'
      exact .single ⟨hc, hs, hrest⟩ hw'
  | evalItems c scope es =>
    cases es with
    | nil => exact .nil
    | cons e rest =>
      obtain ⟨hc, hs, hcode⟩ := ha
      obtain ⟨he, hrest⟩ := List.forall_mem_cons.mp hcode
      have he : r.Admits (.eval c scope e) := ⟨hc, hs, he⟩
      apply Covers.cons he hw
      apply Covers.after (hkept.eval he) hw
      intro _ w' _ hw'
      split
      · exact .nil
      · exact .single ⟨hc, hs, hrest⟩ hw'
  | evalFields c scope fields =>
    cases fields with
    | nil => exact .nil
    | cons field rest =>
      obtain ⟨name, e⟩ := field
      obtain ⟨hc, hs, hcode⟩ := ha
      obtain ⟨he, hrest⟩ := List.forall_mem_cons.mp hcode
      have he : r.Admits (.eval c scope e) := ⟨hc, hs, he⟩
      rw [callsOf]
      split
      · exact .single ⟨hc, hs, hrest⟩ hw
      · apply Covers.cons he hw
        apply Covers.after (hkept.eval he) hw
        intro _ w' _ hw'
        exact .single ⟨hc, hs, hrest⟩ hw'
  | evalCases c scope value cases chosen => exact evalCases_covered hkept h hw ha
  | applyValue c id callee args position railUse =>
    obtain ⟨hc, hid, hcallee, hargs⟩ := ha
    rw [callsOf]
    split
    · next f hf =>
      rw [← Callable.value_of_callable? hf] at hcallee
      exact .single ⟨hc, hid, hcallee, hargs⟩ hw
    · exact .nil
  | applyCallable c id f args position railUse => exact applyCallable_covered h hw ha
  | call c name id args position railUse => exact call_covered hw ha
  | carryOut c f id args => exact carryOut_covered h hw ha
  | carryOutBody c f toplevel body site args => exact carryOutBody_covered h hw ha
  | carryOutBuiltin c f b site args => exact carryOutBuiltin_covered h hw ha
  | runSteps c caller step => exact runSteps_covered hkept hw ha

/-- What a regime admits is at work in a context of it. -/
theorem Regime.IsLawful.context (h : r.IsLawful) {activation : Activation}
    (ha : r.Admits activation) :
  r.context activation.context
  := by
  cases activation with
  | lookAt => exact h.lookAside ha.1
  | carryOutBody | carryOutBuiltin => exact h.inside ha.1
  | _ => exact ha.1

/-- What a frame reaches is admitted by a lawful regime that admits the frame. -/
theorem Regime.IsLawful.reached (h : r.IsLawful) {s t : Frame} (hreaches : s.Reaches t)
    (ha : r.Admits s.activation) (hw : r.world s.world) :
  r.Admits t.activation ∧ r.world t.world
  := by
  induction hreaches with
  | refl s => exact ⟨ha, hw⟩
  | @step s t u hmem _ ih =>
    obtain ⟨_ | fuel, activation, w⟩ := s
    · cases hmem
    · obtain ⟨ht, hw'⟩ := callsOf_covered (h.kept fuel) h hw ha t hmem
      exact ih ht hw'

end LiveExpr.Interpreter
