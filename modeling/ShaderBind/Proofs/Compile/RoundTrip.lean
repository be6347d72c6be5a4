import ShaderBind.Proofs.Compile.Steps
import ShaderBind.Proofs.Source.Marker
import ShaderBind.Proofs.Source.Walk

/-!
# Texts that are compiled again

A text that a compile leaves for WebGPU may be given to another compile as a WGSL source. It is
taken as it is then: no tool is asked, the artifact is the same, and the language is the one that the
first compile reported, however often this is repeated (`recompile_same`).

Two facts carry this. Whatever way an artifact is made, its language can be read off its text alone
(`settled_generate`): a text that went through the back end ends with the marker of its language,
and a WGSL source was read in this way to begin with. And a WGSL source without directives is its
own unrolling, so that it becomes the artifact with the language that is read off it
(`run_generate_ofText`).
-/

namespace ShaderBind

/-! ## What results have in common -/

namespace Traced

variable {α β : Type} {P : α → Prop} {Q : β → Prop}

/-- Every result of the work has the property. -/
def Ensures (x : Traced α) (P : α → Prop) : Prop :=
  ∀ t a t', x.run.run t = (.ok a, t') → P a

theorem Ensures.pure {a : α} (h : P a) : (Pure.pure a : Traced α).Ensures P := by
  intro t b t' hrun
  cases hrun
  exact h

theorem Ensures.fail (e : ShaderError) : (fail e : Traced α).Ensures P := by
  intro t b t' hrun
  cases hrun

theorem Ensures.ofStop {r : Except Stop α} (h : ∀ a, r = .ok a → P a) : (ofStop r).Ensures P := by
  intro t a t' hrun
  cases hrun
  exact h a rfl

/-- What a first part ensures can be used to show what the second one does. -/
theorem Ensures.bind {x : Traced α} {f : α → Traced β} (hx : x.Ensures P)
    (hf : ∀ a, P a → (f a).Ensures Q) : (x >>= f).Ensures Q := by
  intro t b t' hrun
  rcases hstep : x.run.run t with ⟨e | a, between⟩
  · rw [run_bind_of_error hstep] at hrun
    cases hrun
  · rw [run_bind_of_ok hstep] at hrun
    exact hf a (hx t a between hstep) between b t' hrun

/-- Only the last step counts where it ensures the property by itself. -/
theorem Ensures.of_last {x : Traced α} {f : α → Traced β} (hf : ∀ a, (f a).Ensures Q) :
    (x >>= f).Ensures Q :=
  Ensures.bind (P := fun _ => True) (fun _ _ _ _ => trivial) fun a _ => hf a

theorem Ensures.ite {p : Prop} [Decidable p] {x y : Traced α} (hx : x.Ensures P)
    (hy : y.Ensures P) : (if p then x else y).Ensures P := by
  split
  · exact hx
  · exact hy

end Traced

/-! ## The language of a text -/

/-- What a back end promises: its text ends with the marker of the language it was given. -/
def BackEnd.Marks (backEnd : BackEnd) : Prop :=
  ∀ request text, backEnd request = .ok text →
    ∃ body, text = body ++ Source.marker request.language

/-- The built-in back end marks its texts. -/
theorem BuiltIn.backEnd_marks : BackEnd.Marks BuiltIn.backEnd := by
  intro request text h
  obtain ⟨m, -, h⟩ := bind_eq_ok_iff.1 h
  exact ⟨_, (pure_eq_ok_iff.1 h).symm⟩

namespace Compile

/-- The language that a WGSL text was authored in. -/
def authored (text : String) : Language :=
  match Source.languageOf text with
  | .unspecified => .wgsl
  | marked => marked

/-- A marker at the end of a text tells its language. -/
theorem authored_append_marker (body : String) {l : Language} (h : l ≠ .unspecified) :
    authored (body ++ Source.marker l) = l := by
  have hfound : Source.findMarker? (body.toList ++ (Source.marker l).toList ++ []) =
      some (body.toList, l) := Source.findMarker?_marker body.toList l (by simp)
  rw [List.append_nil, ← String.toList_append] at hfound
  have hlanguage : Source.languageOf (body ++ Source.marker l) = l := by
    rw [Source.languageOf, hfound]
    rfl
  rw [authored, hlanguage]
  cases l with
  | unspecified => exact absurd rfl h
  | _ => rfl

end Compile

/-- The artifact is a WGSL text that tells the language it was authored in. -/
def Artifact.Tells (artifact : Artifact) (language : Language) : Prop :=
  ∃ text, artifact = .wgsl text ∧ Compile.authored text = language

namespace Compile

open Traced

variable {c : Context} {i : CompileInfo}

/-! ## The first compile -/

theorem ensures_askBackEnd (hback : c.backEnd.Marks) {request : TextRequest}
    (hlanguage : request.language ≠ .unspecified) :
    (askBackEnd c request).Ensures fun text => authored text = request.language := by
  refine .of_last fun _ => .ofStop fun text htext => ?_
  obtain ⟨body, rfl⟩ := hback request text htext
  exact authored_append_marker body hlanguage

/-- A text made from words tells the language that it was asked for. -/
theorem settled_generateByteCode (hdevice : c.device = .webGpu) (hback : c.backEnd.Marks)
    (hlanguage : i.language ≠ .unspecified) (words : List UInt32) :
    (generateByteCode c i words).Ensures fun g => g.artifact.Tells g.language := by
  unfold generateByteCode
  refine .ite (.fail _) ?_
  rw [hdevice]
  exact (ensures_askBackEnd hback hlanguage).bind fun text htext => .pure ⟨text, rfl, htext⟩

/-- A text made through SPIR-V tells the author's language. -/
theorem settled_generateByIr (hdevice : c.device = .webGpu) (hback : c.backEnd.Marks)
    {language : Language} (hlanguage : language ≠ .unspecified)
    (frontEnd : IrRequest → Traced (List UInt32)) (source : String) :
    (generateByIr c i language frontEnd source).Ensures fun g => g.artifact.Tells g.language := by
  have hrest : ∀ words, (do
      if c.device = .webGpu then
        let text ← askBackEnd c ⟨i.shader, words, language⟩
        return { artifact := .wgsl text, ir := some words, language }
      else return { artifact := .spirv words, language } : Traced Generated).Ensures
        fun g => g.artifact.Tells g.language := by
    intro words
    rw [if_pos hdevice]
    exact (ensures_askBackEnd hback hlanguage).bind fun text htext => .pure ⟨text, rfl, htext⟩
  exact .ite (.of_last fun _ => .of_last hrest) (.of_last hrest)

/-- A WGSL text for WebGPU is taken as it is. -/
theorem generateWgsl_eq (hdevice : c.device = .webGpu) (source : String) :
    generateWgsl c i source =
      pure { artifact := .wgsl source, language := authored source } := by
  unfold generateWgsl
  rw [if_pos hdevice]
  rfl

/-- However a text is made for WebGPU, it tells its language. -/
theorem settled_generateSource (hdevice : c.device = .webGpu) (hback : c.backEnd.Marks)
    (source : String) (language : Language) :
    (generateSource c i source language).Ensures fun g => g.artifact.Tells g.language := by
  unfold generateSource
  rw [if_neg (by rw [hdevice]; decide), if_neg (by rw [hdevice]; decide)]
  split
  · rw [generateWgsl_eq hdevice]
    exact .pure ⟨source, rfl, rfl⟩
  · exact settled_generateByIr hdevice hback (by decide) _ source
  · exact settled_generateByIr hdevice hback (by decide) _ source
  · split
    · exact .fail _
    · exact settled_generateByIr hdevice hback (by decide) _ source
  · exact .fail _

/-- However an artifact is made for WebGPU, its text tells its language. -/
theorem settled_generate (hdevice : c.device = .webGpu) (hback : c.backEnd.Marks)
    (hlanguage : i.byteCode = none ∨ i.language ≠ .unspecified) :
    (generate c i).Ensures fun g => g.artifact.Tells g.language := by
  unfold generate
  split
  next words hcode =>
    exact settled_generateByteCode hdevice hback (hlanguage.resolve_left (by simp [hcode])) words
  next => exact .of_last fun source => settled_generateSource hdevice hback source _

/-- Listing the resources changes neither the artifact nor the language. -/
theorem ensures_finish (g : Generated) :
    (finish c i g).Ensures fun k => k.artifact = g.artifact ∧ k.language = g.language :=
  .ite (.pure ⟨rfl, rfl⟩) (.of_last fun _ => .pure ⟨rfl, rfl⟩)

/-- A compile has the artifact and the language that were made. -/
theorem ensures_compile {P : Artifact → Language → Prop}
    (h : (generate c i).Ensures fun g => P g.artifact g.language) :
    (compile c i).Ensures fun k => P k.artifact k.language := by
  rw [compile_eq]
  refine .ite (.of_last fun _ => h.bind fun g hg t k t' hrun => ?_) (.fail _)
  obtain ⟨hartifact, hlanguage⟩ := ensures_finish g t k t' hrun
  rwa [hartifact, hlanguage]

/-! ## Compiles of an artifact's own text -/

/-- The request, with the text of an artifact as its source, inline and in WGSL. -/
def ofText (i : CompileInfo) (artifact : Artifact) : CompileInfo :=
  { i with language := .wgsl, source := artifact.text?, path := none, byteCode := none }

/-- Makes an artifact from the text of the last one, once for each request. -/
def regenerate (c : Context) (is : List CompileInfo) (g : Generated) : Traced Generated :=
  is.foldlM (fun g i => generate c (ofText i g.artifact)) g

/-- Compiles the text of the last artifact, once for each request. -/
def recompile (c : Context) (is : List CompileInfo) (k : Compiled) : Traced Compiled :=
  is.foldlM (fun k i => compile c (ofText i k.artifact)) k

/-- A text without directives is taken as it is, and no tool is asked. -/
theorem run_generate_ofText (hdevice : c.device = .webGpu) {text : String}
    (hfind : Source.Include.find text = .ok []) (t : Trace) :
    (generate c (ofText i (.wgsl text))).run.run t =
      (.ok { artifact := .wgsl text, language := authored text }, t) := by
  have hload : (loadSource c (ofText i (.wgsl text)) .wgsl).run.run t = (.ok text, t) := by
    have hunroll : unrolled c (ofText i (.wgsl text)) .wgsl none text = .ok text :=
      Source.Unroller.unroll_of_find_eq_nil hfind none
    change ((Traced.ofStop (unrolled c (ofText i (.wgsl text)) .wgsl none text)).run.run t) = _
    rw [hunroll]
    rfl
  have hsource : generateSource c (ofText i (.wgsl text)) text .wgsl =
      generateWgsl c (ofText i (.wgsl text)) text := by
    unfold generateSource
    rw [if_neg (by rw [hdevice]; decide), if_neg (by rw [hdevice]; decide)]
  change ((loadSource c (ofText i (.wgsl text)) .wgsl >>= fun source =>
    generateSource c (ofText i (.wgsl text)) source .wgsl).run.run t) = _
  rw [run_bind_of_ok hload, hsource, generateWgsl_eq hdevice]
  rfl

/-- Made again from its own text, any number of times, an artifact stays the same. -/
theorem run_regenerate (hdevice : c.device = .webGpu) {text : String}
    (hfind : Source.Include.find text = .ok []) (is : List CompileInfo) (t : Trace) :
    (regenerate c is { artifact := .wgsl text, language := authored text }).run.run t =
      (.ok { artifact := .wgsl text, language := authored text }, t) := by
  induction is with
  | nil => rfl
  | cons i is ih =>
    rw [regenerate, List.foldlM_cons, run_bind_of_ok (run_generate_ofText hdevice hfind t)]
    exact ih

/-- Compiled again from its own text, any number of times, an artifact stays the same. -/
theorem ensures_recompile (hdevice : c.device = .webGpu) {text : String}
    (hfind : Source.Include.find text = .ok []) (is : List CompileInfo) (k : Compiled)
    (hk : k.artifact = .wgsl text ∧ k.language = authored text) :
    (recompile c is k).Ensures fun k' => k'.artifact = .wgsl text ∧ k'.language = authored text := by
  induction is generalizing k with
  | nil => exact .pure hk
  | cons i is ih =>
    have hgenerate : (generate c (ofText i k.artifact)).Ensures fun g =>
        g.artifact = .wgsl text ∧ g.language = authored text := by
      intro t g t' hrun
      rw [hk.1, run_generate_ofText hdevice hfind] at hrun
      cases hrun
      exact ⟨rfl, rfl⟩
    rw [recompile, List.foldlM_cons]
    exact (ensures_compile
      (P := fun artifact language => artifact = .wgsl text ∧ language = authored text)
      hgenerate).bind ih

/-- Compiles that list no resources do not stop. -/
theorem exists_recompile (hdevice : c.device = .webGpu) {text : String}
    (hfind : Source.Include.find text = .ok []) {is : List CompileInfo}
    (hskip : ∀ i ∈ is, i.flags.skipReflection = true) (k : Compiled)
    (hk : k.artifact = .wgsl text) (t : Trace) :
    ∃ k' t', (recompile c is k).run.run t = (.ok k', t') := by
  induction is generalizing k t with
  | nil => exact ⟨k, t, rfl⟩
  | cons i is ih =>
    obtain ⟨hi, his⟩ := List.forall_mem_cons.1 hskip
    have hone : hasOneSource (ofText i (.wgsl text)) = true := rfl
    have hskips : skipsReflection (ofText i (.wgsl text)) (.wgsl text) = true := hi
    have hgenerate := run_generate_ofText (i := i) hdevice hfind (after t (.entered .generating))
    have hrun : ∃ k', k'.artifact = .wgsl text ∧ (compile c (ofText i k.artifact)).run.run t =
        (.ok k', after t (.entered .generating)) := by
      rw [hk, compile_eq, if_pos hone, run_record_bind, run_bind_of_ok hgenerate, finish,
        if_pos hskips]
      exact ⟨_, rfl, rfl⟩
    obtain ⟨k', hk', hrun⟩ := hrun
    rw [recompile, List.foldlM_cons, run_bind_of_ok hrun]
    exact ih his k' hk' _

/-- A text that a compile made for WebGPU is not translated again. -/
theorem recompile_same (c : Context) (hdevice : c.device = .webGpu) (hback : c.backEnd.Marks)
    (i : CompileInfo) (hlanguage : i.byteCode = none ∨ i.language ≠ .unspecified)
    (before after : Trace) (k : Compiled) (hcompile : (compile c i).run.run before = (.ok k, after))
    (text : String) (htext : k.artifact = .wgsl text)
    (hfind : Source.Include.find text = .ok []) (is : List CompileInfo) (t : Trace) :
    (regenerate c is { artifact := k.artifact, language := k.language }).run.run t =
        (.ok { artifact := k.artifact, language := k.language }, t) ∧
      (∀ k' t', (recompile c is k).run.run t = (.ok k', t') →
        k'.artifact = k.artifact ∧ k'.language = k.language) ∧
      ((∀ i ∈ is, i.flags.skipReflection = true) →
        ∃ k' t', (recompile c is k).run.run t = (.ok k', t')) := by
  obtain ⟨text', htext', hauthored⟩ :=
    ensures_compile (settled_generate hdevice hback hlanguage) before k after hcompile
  cases htext.symm.trans htext'
  rw [htext, ← hauthored]
  exact ⟨run_regenerate hdevice hfind is t,
    fun k' t' => ensures_recompile hdevice hfind is k ⟨htext, hauthored.symm⟩ t k' t',
    fun hskip => exists_recompile hdevice hfind hskip k htext t⟩

/-- A context whose back end writes a text that has a marker already. -/
def markedTwice : Context where
  device := .webGpu
  glslFrontEnd := fun _ => .ok [Spirv.magic]
  backEnd := fun request => .ok
    (Source.appendMarker "fn f() {} /*$SHADER_SOURCE_LANGUAGE=1*/" request.language)

/-- A request for a GLSL source. -/
def glslSource : CompileInfo :=
  { language := .glsl, source := some "void main() {}", flags := { skipReflection := true } }

/-- The text that becomes of it. -/
def markedText : String :=
  "fn f() {} /*$SHADER_SOURCE_LANGUAGE=1*/\n/*$SHADER_SOURCE_LANGUAGE=2*/"

/-- A shader in GLSL, made again twice. -/
theorem recompile_same_marked :
    ∃ k after, (compile markedTwice glslSource).run.run {} = (.ok k, after) ∧
      k.artifact = .wgsl markedText ∧ k.language = .glsl ∧
      (regenerate markedTwice [glslSource, {}] ⟨k.artifact, none, k.language⟩).run.run {} =
        (.ok ⟨k.artifact, none, k.language⟩, {}) := by
  have hmarks : markedTwice.backEnd.Marks := by
    intro request text h
    cases h
    exact ⟨_, rfl⟩
  have hfirst : ((compile markedTwice glslSource).run.run {}).1.toOption.map
      (fun k => (k.artifact, k.language)) = some (.wgsl markedText, .glsl) := by
    decide +kernel
  have hscan : (Source.Include.find markedText).toOption.map id = some [] := by
    decide +kernel
  obtain ⟨k, hk, hpair⟩ := exists_ok_of_map_toOption hfirst
  obtain ⟨_, hfind, rfl⟩ := exists_ok_of_map_toOption hscan
  obtain ⟨htext, hlanguage⟩ := Prod.mk.inj hpair
  have hrun : (compile markedTwice glslSource).run.run {} =
      (.ok k, ((compile markedTwice glslSource).run.run {}).2) := Prod.ext hk rfl
  exact ⟨k, _, hrun, htext, hlanguage,
    (recompile_same markedTwice rfl hmarks glslSource (.inl rfl) {} _ k hrun markedText htext hfind
      [glslSource, {}] {}).1⟩

end Compile

end ShaderBind
