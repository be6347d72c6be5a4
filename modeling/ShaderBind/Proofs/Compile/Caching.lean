import ShaderBind.Proofs.Compile.Steps
import ShaderBind.Proofs.Source.Cache
import ShaderBind.Proofs.Source.Unrolling
import Mathlib.Data.List.Induction

/-!
# Compiles one after another

Compiles in one context share the texts they read. A compile looks at the trace of earlier ones in a
single place, where its source is loaded, and there only at the text that is kept for its path
(`run_compile_of_file`); every other step is blind to the trace (`Traced.Blind`), as plain work is.
What is kept for a path was put there by the first request for it (`get?_history`).

The key is the path alone, but a text depends on the request besides: for a language without line
directives it is unrolled without line markers. So a compile after others gives what it gives alone
when the first request for its file asked for the same kind of text, or nothing was inlined, or the
file cannot be unrolled; otherwise it is given a text with the wrong markers
(`compile_after_history`).
-/

namespace ShaderBind

/-! ## Steps that do not see the trace -/

namespace Traced

variable {α β : Type}

/-- The result does not depend on the trace, and the texts in it stay as they are. -/
def Blind (x : Traced α) : Prop :=
  ∃ r, ∀ t, (x.run.run t).1 = r ∧ (x.run.run t).2.sources = t.sources

theorem Blind.ofStop (r : Except Stop α) : (ofStop r).Blind :=
  ⟨r, fun _ => ⟨rfl, rfl⟩⟩

theorem Blind.pure (a : α) : (Pure.pure a : Traced α).Blind :=
  .ofStop (.ok a)

theorem Blind.fail (e : ShaderError) : (fail e : Traced α).Blind :=
  .ofStop (.error (.failed e))

theorem Blind.record (e : Event) : (record e).Blind :=
  ⟨.ok (), fun _ => ⟨rfl, rfl⟩⟩

/-- What does not look at the cache has one result, whatever is in it. -/
theorem Blind.run_fst_eq {x : Traced α} (h : x.Blind) (t t' : Trace) :
    (x.run.run t).1 = (x.run.run t').1 := by
  obtain ⟨r, hr⟩ := h
  rw [(hr t).1, (hr t').1]

theorem Blind.sources_eq {x : Traced α} (h : x.Blind) (t : Trace) :
    (x.run.run t).2.sources = t.sources := by
  obtain ⟨_, hr⟩ := h
  exact (hr t).2

/-- Where all that follows is blind, a run sees of the trace what its first step sees, and leaves
the texts that this step leaves. -/
theorem run_bind_blind {x : Traced α} {f : α → Traced β} (hf : ∀ a, (f a).Blind) (t : Trace) :
    ((x >>= f).run.run t).1 = (x.run.run t).1 >>= (fun a => ((f a).run.run {}).1) ∧
      ((x >>= f).run.run t).2.sources = (x.run.run t).2.sources := by
  rcases hx : x.run.run t with ⟨e | a, t'⟩
  · rw [run_bind_of_error hx]
    exact ⟨rfl, rfl⟩
  · rw [run_bind_of_ok hx]
    exact ⟨(hf a).run_fst_eq _ _, (hf a).sources_eq _⟩

/-- A sequence that does not look at the cache in either part does not look at it. -/
theorem Blind.bind {x : Traced α} {f : α → Traced β} (hx : x.Blind) (hf : ∀ a, (f a).Blind) :
    (x >>= f).Blind := by
  obtain ⟨r, hx⟩ := hx
  refine ⟨r >>= fun a => ((f a).run.run {}).1, fun t => ?_⟩
  obtain ⟨hresult, hsources⟩ := run_bind_blind hf t
  exact ⟨hresult.trans (by rw [(hx t).1]), hsources.trans (hx t).2⟩

theorem Blind.ite {p : Prop} [Decidable p] {x y : Traced α} (hx : x.Blind) (hy : y.Blind) :
    (if p then x else y).Blind := by
  split
  · exact hx
  · exact hy

/-- What is plain does not look at the cache. -/
theorem Plain.blind {x : Traced α} (h : x.Plain) : x.Blind := by
  induction h with
  | ofStop r => exact .ofStop r
  | record e _ => exact .record e
  | bind _ _ hx hf => exact hx.bind hf

end Traced

namespace Compile

open Traced

variable {c : Context} {i : CompileInfo}

/-- The end of a compile does not look at the cache. -/
theorem blind_finish (t : Generated) : (finish c i t).Blind := by
  have hreflect : (reflect c i t).Blind :=
    (Blind.record (.entered .reflecting)).bind fun _ => (plain_reflectOn t).blind
  exact .ite (.pure _) (hreflect.bind fun _ => .pure _)

end Compile

/-! ## The texts that are kept -/

namespace Compile

open Traced

/-- Whether a request asks for line markers in a text. -/
def marks (c : Context) (i : CompileInfo) : Bool :=
  !(c.resolveLanguage i.language).isWgslLike

/-- The text that a request makes of a file. -/
def fileText (c : Context) (i : CompileInfo) (path : String) : Except Stop String := do
  let raw ← Stop.ofError (Source.readSource i.shader none (some path) c.store)
  unrolled c i (c.resolveLanguage i.language) (some path) raw

/-- The files that are opened in place of directives when a file is unrolled. -/
def inlined (c : Context) (path : String) : List (String × Nat) :=
  match Source.readSource "" none (some path) c.store with
  | .ok raw => (Source.Unroller.run ⟨"", c.store, true⟩ raw (some path)).2.opened
  | .error _ => []

end Compile

/-- The file that a request reads: its path, if that is the one source it gives. -/
def CompileInfo.file? (i : CompileInfo) : Option String :=
  if Compile.hasOneSource i then i.path else none

namespace Compile

open Traced

/-- A request with a file has that file as its only source. -/
theorem file?_eq_some {i : CompileInfo} {path : String} (h : i.file? = some path) :
    hasOneSource i = true ∧ i.path = some path ∧ i.byteCode = none := by
  unfold CompileInfo.file? at h
  split at h
  next hone =>
    refine ⟨hone, h, ?_⟩
    cases hcode : i.byteCode with
    | none => rfl
    | some words =>
      cases hsource : i.source <;> simp [hasOneSource, h, hcode, hsource] at hone
  next => cases h

/-- A file is loaded through the cache. -/
theorem run_loadSource {c : Context} {i : CompileInfo} {path : String} (h : i.path = some path)
    (t : Trace) :
    (loadSource c i (c.resolveLanguage i.language)).run.run t =
      ((t.sources.getOrConvert path (fileText c i path)).1,
        { t with sources := (t.sources.getOrConvert path (fileText c i path)).2 }) := by
  unfold loadSource
  rw [h]
  rfl

/-- A request without a file does not see the trace. -/
theorem blind_compile {c : Context} {i : CompileInfo} (h : i.file? = none) :
    (compile c i).Blind := by
  rw [compile_eq]
  split
  next hone =>
    have hpath : i.path = none := by simpa [CompileInfo.file?, hone] using h
    refine (Blind.record _).bind fun _ => Blind.bind ?_ blind_finish
    unfold generate
    split
    · exact (plain_generateByteCode _).blind
    · refine Blind.bind ?_ fun source => (plain_generateSource source _).blind
      unfold loadSource
      rw [hpath]
      exact (Blind.ofStop _).bind fun _ => .ofStop _
  next => exact .fail _

/-- A request with a file sees of the trace the text that is kept for the file, and adds its own if
there is none. -/
theorem run_compile_of_file {c : Context} {i : CompileInfo} {path : String}
    (h : i.file? = some path) :
    (∃ answer : String → Except Stop Compiled, ∀ t, ((compile c i).run.run t).1 =
        (t.sources.getOrConvert path (fileText c i path)).1 >>= answer) ∧
      ∀ t, ((compile c i).run.run t).2.sources =
        (t.sources.getOrConvert path (fileText c i path)).2 := by
  obtain ⟨hone, hpath, hcode⟩ := file?_eq_some h
  let rest (source : String) : Traced Compiled :=
    generateSource c i source (c.resolveLanguage i.language) >>= finish c i
  have hblind : ∀ source, (rest source).Blind := fun source =>
    (plain_generateSource source _).blind.bind blind_finish
  have hcompile : ∀ t, (compile c i).run.run t =
      (loadSource c i (c.resolveLanguage i.language) >>= rest).run.run
        { t with events := t.events ++ [.entered .generating] } := by
    intro t
    rw [compile_eq, if_pos hone, generate, hcode]
    simp only [bind_assoc]
    rfl
  refine ⟨⟨fun source => ((rest source).run.run {}).1, fun t => ?_⟩, fun t => ?_⟩
  · rw [hcompile, (run_bind_blind hblind _).1, run_loadSource hpath]
  · rw [hcompile, (run_bind_blind hblind _).2, run_loadSource hpath]

/-! ## Histories -/

/-- The trace after some requests, one after another, from an empty one. -/
def history (c : Context) (is : List CompileInfo) : Trace :=
  is.foldl (fun t i => ((compile c i).run.run t).2) {}

theorem history_append (c : Context) (is : List CompileInfo) (i : CompileInfo) :
    history c (is ++ [i]) = ((compile c i).run.run (history c is)).2 := by
  rw [history, List.foldl_append]
  rfl

/-- Requests of one context that read a file both succeed or both fail, and their texts are the same
exactly if they agree on line markers or nothing is inlined. -/
theorem fileText_compare (c : Context) (i j : CompileInfo) (path : String) :
    (∃ text text', fileText c i path = .ok text ∧ fileText c j path = .ok text' ∧
        (text = text' ↔ marks c i = marks c j ∨ inlined c path = [])) ∨
      ∃ e e', fileText c i path = .error e ∧ fileText c j path = .error e' := by
  unfold fileText inlined Source.readSource
  cases hstore : c.store with
  | none => exact .inr ⟨_, _, rfl, rfl⟩
  | some store =>
    cases htext : store path with
    | error e =>
      simp only [htext]
      exact .inr ⟨_, _, rfl, rfl⟩
    | ok raw =>
      simp only [htext, ← hstore]
      let unroller (shader : String) (markers : Bool) : Source.Unroller :=
        ⟨shader, c.store, markers⟩
      have hvisit := (Source.Unroller.unroll_compare (unroller i.shader (marks c i))
        (unroller "" true) rfl raw (some path)).1
      have hcompare := (Source.Unroller.unroll_compare (unroller i.shader (marks c i))
        (unroller j.shader (marks c j)) rfl raw (some path)).2
      rw [hvisit] at hcompare
      exact hcompare

/-- The cache holds the text that the first compile of a file made, if it made one. -/
theorem get?_history (c : Context) (is : List CompileInfo) (path : String) :
    (history c is).sources.get? path =
      (is.find? fun j => j.file? = some path).bind fun j => (fileText c j path).toOption := by
  induction is using List.reverseRecOn with
  | nil => rfl
  | append_singleton is i ih =>
    rw [history_append, List.find?_append, List.find?_singleton]
    cases hfile : i.file? with
    | none =>
      rw [(blind_compile hfile).sources_eq, ih]
      simp
    | some q =>
      rw [(run_compile_of_file hfile).2, Source.Cache.get?_getOrConvert, ih]
      by_cases hq : q = path
      · subst hq
        cases hfirst : is.find? fun j => decide (j.file? = some q) with
        | none => simp
        | some j =>
          -- the first request failed only if this one does
          obtain ⟨_, _, hi, hj, -⟩ | ⟨_, _, hi, hj⟩ := fileText_compare c i j q <;>
            simp [hi, hj, Except.toOption]
      · simp [hq]

/-- Nothing that is kept from earlier requests differs from what a request would make itself: the
first request for its file asked for line markers as it does, or its text cannot be made, or nothing
is inlined in it. -/
def Undisturbed (c : Context) (is : List CompileInfo) (i : CompileInfo) : Prop :=
  ∀ path j, i.file? = some path → is.find? (fun j => j.file? = some path) = some j →
    marks c j = marks c i ∨ (∃ e, fileText c i path = .error e) ∨ inlined c path = []

/-- Of the earlier requests only the first one for the file can disturb. -/
theorem undisturbed_iff {c : Context} {is : List CompileInfo} {i : CompileInfo} {path : String}
    (h : i.file? = some path) :
    Undisturbed c is i ↔ ∀ j, is.find? (fun j => j.file? = some path) = some j →
      marks c j = marks c i ∨ (∃ e, fileText c i path = .error e) ∨ inlined c path = [] := by
  refine ⟨fun hu j => hu path j h, fun hall q j hq => ?_⟩
  cases h.symm.trans hq
  exact hall j

/-- What is kept for a file, or else made, after a history. -/
theorem getOrConvert_history (c : Context) (is : List CompileInfo) (i : CompileInfo)
    {path : String} (h : i.file? = some path) :
    ((history c is).sources.getOrConvert path (fileText c i path)).1 = fileText c i path ↔
      Undisturbed c is i := by
  rw [Source.Cache.getOrConvert_fst, get?_history, undisturbed_iff h]
  cases hfirst : is.find? fun j => decide (j.file? = some path) with
  | none => simp
  | some j =>
    simp only [Option.some.injEq, forall_eq']
    obtain ⟨text, text', hj, hi, hsame⟩ | ⟨e, e', hj, hi⟩ := fileText_compare c j i path
    · simp [hi, hj, Except.toOption, hsame]
    · simp [hi, hj, Except.toOption]

/-- Compiles one after another. A request whose file is undisturbed gives what it gives alone; and
of a request that reads a file, the loaded source is the one it loads alone exactly if it is
undisturbed. -/
theorem compile_after_history (c : Context) (is : List CompileInfo) (i : CompileInfo) :
    (Undisturbed c is i →
        ((compile c i).run.run (history c is)).1 = ((compile c i).run.run {}).1) ∧
      ((i.file?).isSome →
        (((loadSource c i (c.resolveLanguage i.language)).run.run (history c is)).1 =
            ((loadSource c i (c.resolveLanguage i.language)).run.run {}).1 ↔
          Undisturbed c is i)) := by
  cases hfile : i.file? with
  | none => exact ⟨fun _ => (blind_compile hfile).run_fst_eq _ _, fun h => nomatch h⟩
  | some path =>
    have halone : ((({} : Trace).sources).getOrConvert path (fileText c i path)).1 =
        fileText c i path := by
      rw [Source.Cache.getOrConvert_fst]
      rfl
    obtain ⟨answer, hanswer⟩ := (run_compile_of_file (c := c) hfile).1
    refine ⟨fun h => ?_, fun _ => ?_⟩
    · rw [hanswer, hanswer, halone, (getOrConvert_history c is i hfile).2 h]
    · have hpath := (file?_eq_some hfile).2.1
      rw [run_loadSource hpath, run_loadSource hpath, halone]
      exact getOrConvert_history c is i hfile

/-- A context with a file that includes another, and with tools that make the same of every
source. -/
def oneInclude : Context where
  device := .webGpu
  store := some (.ofFiles
    [("main.wgsl", "#include \"inc.wgsl\"\nconst n = k;\n"), ("inc.wgsl", "const k = 1;")])
  glslFrontEnd := fun _ => .ok [Spirv.magic]
  backEnd := fun request => .ok (Source.appendMarker "x" request.language)
  reflector := fun _ request => pure
    ⟨"main", .pixel, { shader := request.shader, stage := .pixel, language := request.language,
                       resources := [] }⟩

/-- A request for the file that includes another. -/
def mainFile (name : String) (language : Language) : CompileInfo :=
  { name := some name, language, path := some "main.wgsl" }

/-- A compile after another one of the same file, in a language of the same kind. -/
theorem compile_after_history_glsl :
    ((compile oneInclude (mainFile "B" .glslVerbatim)).run.run
        (history oneInclude [mainFile "A" .glsl])).1 =
      ((compile oneInclude (mainFile "B" .glslVerbatim)).run.run {}).1 := by
  refine (compile_after_history oneInclude [mainFile "A" .glsl] (mainFile "B" .glslVerbatim)).1 ?_
  intro path j hfile hfirst
  have hj : j = mainFile "A" .glsl := by simpa using List.mem_of_find?_eq_some hfirst
  exact .inl (by rw [hj]; rfl)

/-- A text with line markers reaches a compile of WGSL. -/
theorem compile_after_history_wgsl :
    ((compile oneInclude (mainFile "B" .wgsl)).run.run
        (history oneInclude [mainFile "A" .glsl])).1 ≠
      ((compile oneInclude (mainFile "B" .wgsl)).run.run {}).1 := by
  intro h
  have hafter : ((compile oneInclude (mainFile "B" .wgsl)).run.run
      (history oneInclude [mainFile "A" .glsl])).1.toOption.map Compiled.artifact =
        some (.wgsl "\n#line 1\nconst k = 1;\n#line 1\n\nconst n = k;\n") := by
    decide +kernel
  have halone : ((compile oneInclude (mainFile "B" .wgsl)).run.run {}).1.toOption.map
      Compiled.artifact = some (.wgsl "const k = 1;\nconst n = k;\n") := by
    decide +kernel
  rw [h, halone] at hafter
  exact absurd hafter (by decide)

end Compile

end ShaderBind
