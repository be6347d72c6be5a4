import ShaderBind.Compile.Run
import ShaderBind.Proofs.Outcome

/-!
# The steps of a compile

Most of a compile is plain work (`Traced.Plain`): it asks tools, gives warnings and may stop, but
enters no phase and does not look at the trace. Only three steps are not plain: entering one of the
two phases, and loading a source from a file, which looks at the texts that are kept.

So a compile takes one of five courses (`Compile.Course`): it is refused before any phase, stops in
the first or in the second phase, or has a result after the first phase, then without a list of
resources, or after both, then with one (`Compile.course_compile`).
-/

namespace ShaderBind

namespace Traced

variable {α β : Type}

/-! ## Plain work -/

/-- Work that asks tools, gives warnings and may stop. -/
inductive Plain : {α : Type} → Traced α → Prop
  | ofStop {α : Type} (r : Except Stop α) : Plain (ofStop r)
  | record (e : Event) (h : Event.phases [e] = []) : Plain (record e)
  | bind {α β : Type} {x : Traced α} {f : α → Traced β} (hx : Plain x) (hf : ∀ a, Plain (f a)) :
    Plain (x >>= f)

theorem Plain.pure (a : α) : (Pure.pure a : Traced α).Plain :=
  .ofStop (.ok a)

theorem Plain.fail (e : ShaderError) : (fail e : Traced α).Plain :=
  .ofStop (.error (.failed e))

theorem Plain.called (call : Call) : (Traced.record (.called call)).Plain :=
  .record _ rfl

theorem Plain.warn (text : String) : (Traced.warn text).Plain :=
  .record _ rfl

/-- A choice between plain computations is plain. -/
theorem Plain.ite {p : Prop} [Decidable p] {x y : Traced α} (hx : x.Plain) (hy : y.Plain) :
    (if p then x else y).Plain := by
  split
  · exact hx
  · exact hy

theorem Plain.warnings (texts : List String) :
    (forIn texts PUnit.unit fun text _ => do
      Traced.warn text
      return ForInStep.yield PUnit.unit : Traced PUnit).Plain := by
  induction texts with
  | nil => exact .pure _
  | cons text texts ih =>
    rw [List.forIn_cons]
    refine ((Plain.warn text).bind fun _ => .pure _).bind fun step => ?_
    cases step with
    | done => exact .pure _
    | yield => exact ih

/-- Warnings that are passed on enter no phase. -/
theorem Plain.ofNoted (x : Noted α) : (ofNoted x).Plain :=
  (Plain.warnings x.outcome.2).bind fun _ => .ofStop _

/-! ## Phases -/

/-- The second trace comes after the first, and in between the given phases are entered. -/
def Enters (t t' : Trace) (phases : List Phase) : Prop :=
  ∃ events, t'.events = t.events ++ events ∧ Event.phases events = phases

theorem Enters.refl (t : Trace) : Enters t t [] :=
  ⟨[], (List.append_nil _).symm, rfl⟩

/-- Phases of two stretches are entered one after the other. -/
theorem Enters.trans {t t' t'' : Trace} {ps qs : List Phase} (h : Enters t t' ps)
    (h' : Enters t' t'' qs) : Enters t t'' (ps ++ qs) := by
  obtain ⟨events, hevents, rfl⟩ := h
  obtain ⟨events', hevents', rfl⟩ := h'
  exact ⟨events ++ events', by rw [hevents', hevents, List.append_assoc], List.filterMap_append⟩

/-- The trace with one more event. -/
def after (t : Trace) (e : Event) : Trace :=
  { t with events := t.events ++ [e] }

theorem enters_after (t : Trace) (e : Event) : Enters t (after t e) (Event.phases [e]) :=
  ⟨[e], rfl, rfl⟩

/-- A recorded event stands in the trace of all that follows. -/
theorem run_record_bind (e : Event) (x : Traced α) (t : Trace) :
    (record e >>= fun _ => x).run.run t = x.run.run (after t e) :=
  rfl

/-- The work enters no phase. -/
def Quiet (x : Traced α) : Prop :=
  ∀ t, Enters t (x.run.run t).2 []

/-- A sequence of quiet computations is quiet. -/
theorem Quiet.bind {x : Traced α} {f : α → Traced β} (hx : x.Quiet) (hf : ∀ a, (f a).Quiet) :
    (x >>= f).Quiet := by
  intro t
  have ht := hx t
  rcases hrun : x.run.run t with ⟨e | a, t'⟩
  · rw [run_bind_of_error hrun]
    rwa [hrun] at ht
  · rw [run_bind_of_ok hrun]
    rw [hrun] at ht
    exact ht.trans (hf a t')

/-- What is plain enters no phase. -/
theorem Plain.quiet {x : Traced α} (h : x.Plain) : x.Quiet := by
  induction h with
  | ofStop r => exact Enters.refl
  | record e he => exact fun t => he ▸ enters_after t e
  | bind _ _ hx hf => exact hx.bind hf

end Traced

/-! ## Making the artifact -/

namespace Compile

open Traced

variable {c : Context} {i : CompileInfo}

theorem plain_askBackEnd (request : TextRequest) : (askBackEnd c request).Plain :=
  (Plain.called _).bind fun _ => .ofStop _

theorem plain_generateByteCode (words : List UInt32) : (generateByteCode c i words).Plain := by
  unfold generateByteCode
  split
  · exact .fail _
  · split
    · exact .pure _
    · exact (plain_askBackEnd _).bind fun _ => .pure _
    · exact .fail _

/-- A compile through SPIR-V enters no phase of its own. -/
theorem plain_generateByIr {language : Language} {frontEnd : IrRequest → Traced (List UInt32)}
    (hfront : ∀ request, (frontEnd request).Plain) (source : String) :
    (generateByIr c i language frontEnd source).Plain := by
  have hrest : (do
      let words ← frontEnd (irRequest c i source language)
      if c.device = .webGpu then
        let text ← askBackEnd c ⟨i.shader, words, language⟩
        return { artifact := .wgsl text, ir := some words, language }
      else return { artifact := .spirv words, language } : Traced Generated).Plain :=
    (hfront _).bind fun _ => .ite ((plain_askBackEnd _).bind fun _ => .pure _) (.pure _)
  exact .ite ((Plain.warn _).bind fun _ => hrest) hrest

/-- A conversion to GLSL enters no phase. -/
theorem plain_convert (b : Glsl.BuildInfo) : (Glsl.convert b).Plain := by
  unfold Glsl.convert
  split
  · exact .fail _
  · split
    · exact .fail _
    · refine (Plain.called _).bind fun _ => (Plain.ofStop _).bind fun answer => ?_
      cases answer with
      | ok text => exact .pure _
      | error log => exact .fail _

/-- A text for a driver is built in one phase. -/
theorem plain_build (b : Glsl.BuildInfo) : (Glsl.build b).Plain := by
  have hheader : (Glsl.buildHeader b).Plain := (Plain.ofNoted _).bind fun _ => .pure _
  unfold Glsl.build
  split
  · exact .ite ((Plain.warn _).bind fun _ => .pure _) (.pure _)
  · exact hheader.bind fun _ => .pure _
  · exact hheader.bind fun _ => .pure _
  · exact hheader.bind fun _ => (plain_convert b).bind fun _ => .pure _
  · exact .fail _

theorem plain_generateForGl (source : String) (language : Language) :
    (generateForGl c i source language).Plain := by
  unfold generateForGl
  split
  · exact (plain_build _).bind fun _ => .pure _
  · exact (plain_build _).bind fun _ => .pure _
  · exact (plain_build _).bind fun _ => .pure _
  · exact .fail _

theorem plain_generateWgsl (source : String) : (generateWgsl c i source).Plain :=
  .ite (.pure _) ((Plain.ofStop _).bind fun _ => .pure _)

/-- However a source is turned into an artifact, no phase is entered. -/
theorem plain_generateSource (source : String) (language : Language) :
    (generateSource c i source language).Plain := by
  have hfront : ∀ (call : IrRequest → Call) (frontEnd : FrontEnd) request,
      (do
        record (.called (call request))
        ofStop (frontEnd request) : Traced (List UInt32)).Plain :=
    fun _ _ _ => (Plain.called _).bind fun _ => .ofStop _
  unfold generateSource
  refine .ite (.fail _) (.ite (plain_generateForGl source language) ?_)
  split
  · exact plain_generateWgsl source
  · exact plain_generateByIr (hfront .glslFrontEnd _) source
  · exact plain_generateByIr (hfront .glslFrontEnd _) source
  · split
    · exact .fail _
    · exact plain_generateByIr (hfront .hlslFrontEnd _) source
  · exact .fail _

/-- Loading a source enters no phase, though it changes the cache. -/
theorem quiet_loadSource (language : Language) : (loadSource c i language).Quiet := by
  unfold loadSource
  split
  · intro t
    exact Enters.refl t
  · exact ((Plain.ofStop _).bind fun _ => .ofStop _).quiet

/-- An artifact is made in one phase. -/
theorem quiet_generate : (generate c i).Quiet := by
  unfold generate
  split
  · exact (plain_generateByteCode _).quiet
  · exact (quiet_loadSource _).bind fun source => (plain_generateSource source _).quiet

/-! ## Courses -/

/-- What is left of the second phase once it is entered. -/
def reflectOn (c : Context) (i : CompileInfo) (t : Generated) : Traced (String × ResourceList) := do
  let artifact := (t.ir.map Artifact.spirv).getD t.artifact
  let request := reflectRequest i t.language
  Traced.record (.called (.reflector artifact request))
  let reflected ← Traced.ofNoted (c.reflector artifact request)
  match ResourceList.usable i.arraySuffix with
  | some suffix =>
    let list ← Traced.ofError (reflected.resources.merge suffix)
    return (reflected.entryPoint, list)
  | none => return (reflected.entryPoint, reflected.resources)

theorem plain_reflectOn (t : Generated) : (reflectOn c i t).Plain := by
  refine (Plain.called _).bind fun _ => (Plain.ofNoted _).bind fun reflected => ?_
  split
  · exact (Plain.ofStop _).bind fun _ => .pure _
  · exact .pure _

/-- What is left of a compile once the artifact is there. -/
def finish (c : Context) (i : CompileInfo) (t : Generated) : Traced Compiled :=
  if skipsReflection i t.artifact then
    return { name := i.shader, stage := i.stage, entryPoint := i.entryPoint.getD "main"
             language := t.language, artifact := t.artifact, resources := none }
  else do
    let (entryPoint, list) ← reflect c i t
    return { name := i.shader, stage := i.stage, entryPoint
             language := t.language, artifact := t.artifact, resources := some list }

/-- A compile generates and then finishes, once its request is seen to have one source. -/
theorem compile_eq (c : Context) (i : CompileInfo) :
    compile c i =
      if hasOneSource i then do
        record (.entered .generating)
        let t ← generate c i
        finish c i t
      else fail (.sourceConflict i.shader) := by
  unfold compile
  cases hasOneSource i <;> rfl

/-- The phases that a compile enters, and how it ends. -/
inductive Course : List Phase → Except Stop Compiled → Prop
  | refused (s : Stop) : Course [] (.error s)
  | stopped (s : Stop) : Course [.generating] (.error s)
  | generated (compiled : Compiled) (h : compiled.resources = none) :
    Course [.generating] (.ok compiled)
  | stoppedLate (s : Stop) : Course [.generating, .reflecting] (.error s)
  | reflected (compiled : Compiled) (h : compiled.resources.isSome) :
    Course [.generating, .reflecting] (.ok compiled)

/-- The end of a compile enters reflection exactly if it lists resources. -/
theorem course_finish (t : Generated) (before : Trace) :
    ∃ phases, Enters before ((finish c i t).run.run before).2 phases ∧
      Course (.generating :: phases) ((finish c i t).run.run before).1 := by
  unfold finish
  split
  · exact ⟨[], .refl before, .generated _ rfl⟩
  · have hreflect : reflect c i t =
        record (.entered .reflecting) >>= fun _ => reflectOn c i t := rfl
    have henters := (enters_after before (.entered .reflecting)).trans
      ((plain_reflectOn (c := c) (i := i) t).quiet _)
    refine ⟨[.reflecting], ?_⟩
    rw [hreflect, bind_assoc, run_record_bind]
    rcases hrun : (reflectOn c i t).run.run (after before (.entered .reflecting)) with
      ⟨s | ⟨entryPoint, list⟩, last⟩
    · rw [run_bind_of_error hrun]
      rw [hrun] at henters
      exact ⟨henters, .stoppedLate s⟩
    · rw [run_bind_of_ok hrun]
      rw [hrun] at henters
      exact ⟨henters, .reflected _ rfl⟩

/-- Every compile goes through its phases in order. -/
theorem course_compile (c : Context) (i : CompileInfo) (before : Trace) :
    ∃ phases, Enters before ((compile c i).run.run before).2 phases ∧
      Course phases ((compile c i).run.run before).1 := by
  rw [compile_eq]
  split
  · have henters := (enters_after before (.entered .generating)).trans
      (quiet_generate (c := c) (i := i) _)
    rw [run_record_bind]
    rcases hrun : (generate c i).run.run (after before (.entered .generating)) with ⟨s | t, between⟩
    · rw [run_bind_of_error hrun]
      rw [hrun] at henters
      exact ⟨_, henters, .stopped s⟩
    · rw [run_bind_of_ok hrun]
      rw [hrun] at henters
      obtain ⟨phases, hphases, hcourse⟩ := course_finish (c := c) (i := i) t between
      exact ⟨_, henters.trans hphases, hcourse⟩
  · exact ⟨[], .refl before, .refused _⟩

end Compile

end ShaderBind
