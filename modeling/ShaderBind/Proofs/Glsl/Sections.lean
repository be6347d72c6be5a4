import ShaderBind.Glsl.Build
import ShaderBind.Proofs.Outcome
import ShaderBind.Proofs.Text.Border

/-!
# The sections of a GLSL text

A GLSL text for a driver is a list of pieces, each of one section (`Section`), and the sections
stand in a fixed order (`marked`). A piece is one directive or declaration, or what the caller gave:
extensions, definitions and the body.

Behind whole lines a piece begins a line. Every piece is whole lines except for the caller's
definitions, which get no newline, and the body, which stands last. So a piece begins a line unless
it is the line of the platform and the definitions in front of it are open at the end
(`build_sections`).
-/

namespace ShaderBind

namespace Traced

variable {α : Type}

/-- The work ends in one way from every trace. -/
def Ends (x : Traced α) (r : Except Stop α) : Prop :=
  ∀ t, ∃ t', x.run.run t = (r, t')

theorem Ends.bind {β : Type} {x : Traced α} {f : α → Traced β} {a : α} {r : Except Stop β}
    (hx : x.Ends (.ok a)) (hf : (f a).Ends r) : (x >>= f).Ends r := by
  intro t
  obtain ⟨between, hx⟩ := hx t
  obtain ⟨after, hf⟩ := hf between
  exact ⟨after, (run_bind_of_ok hx).trans hf⟩

theorem ends_pure (a : α) : (pure a : Traced α).Ends (.ok a) :=
  fun t => ⟨t, rfl⟩

theorem ends_warnings (texts : List String) :
    (forIn texts PUnit.unit fun text _ => do
      Traced.warn text
      return ForInStep.yield PUnit.unit : Traced PUnit).Ends (.ok PUnit.unit) := by
  induction texts with
  | nil => exact ends_pure _
  | cons text texts ih =>
    have hwarn : (Traced.warn text).Ends (.ok ()) := fun t =>
      ⟨{ t with events := t.events ++ [.warned text] }, rfl⟩
    rw [List.forIn_cons]
    exact Ends.bind (a := ForInStep.yield PUnit.unit) (hwarn.bind (ends_pure _)) ih

/-- What notes warnings and succeeds does so in a trace. -/
theorem ends_ofNoted {x : Noted α} {a : α} (h : x.Ends (.ok a)) : (ofNoted x).Ends (.ok a) := by
  have hresult : (ofStop x.outcome.1 : Traced α).Ends (.ok a) := by
    rw [h.outcome_eq]
    exact ends_pure a
  exact (ends_warnings x.outcome.2).bind hresult

end Traced

namespace Glsl

/-! ## Sections -/

/-- The sections of a text. -/
inductive Section
  | version
  | extensions
  | callerExtensions
  | dialect
  | clipSpace
  | extraDefinitions
  | platform
  | stage
  | precisions
  | uniformLayout
  | macros
  | position
  | body
  deriving DecidableEq

namespace Section

/-- The sections in the order in which they stand. -/
def all : List Section :=
  [version, extensions, callerExtensions, dialect, clipSpace, extraDefinitions, platform, stage,
   precisions, uniformLayout, macros, position, body]

/-- Lines under a condition. -/
def linesIf (b : Bool) (lines : List String) : List String := if b then lines else []

/-- What a section consists of, each directive and declaration for itself; nothing where the
condition of the section does not hold. -/
def pieces (b : BuildInfo) (v : Version) (s : Section) : List String :=
  let embedded := isEmbedded b.device
  let features := b.settings.features
  match s with
  | version => [versionLine v embedded]
  | extensions =>
    linesIf (embedded && features.separablePrograms && !Version.le ⟨3, 1⟩ v)
      [extensionLine "GL_EXT_separate_shader_objects"] ++
    linesIf (embedded && features.cubemapArrays && !Version.le ⟨3, 2⟩ v)
      [extensionLine "GL_EXT_texture_cube_map_array"] ++
    linesIf (embedded && b.stage = .geometry && !Version.le ⟨3, 2⟩ v)
      [extensionLine "GL_EXT_geometry_shader"] ++
    linesIf (embedded && (b.stage = .hull || b.stage = .domain) && !Version.le ⟨3, 2⟩ v)
      [extensionLine "GL_EXT_tessellation_shader"]
  | callerExtensions => (b.extensions.toList.filter (· ≠ "")).map (· ++ "\n")
  | dialect =>
    if embedded then ["#ifndef GL_ES\n", "#  define GL_ES 1\n", "#endif\n"]
    else ["#define DESKTOP_GL 1\n"]
  | clipSpace => linesIf b.settings.zeroToOneClipZ ["#define _NDC_ZERO_TO_ONE 1\n"]
  | extraDefinitions => b.settings.extraDefinitions.toList
  | platform => [Source.defineLine "PLATFORM_LINUX" "1"]
  | stage => (Source.stageDefinitions b.stage).map fun name => Source.defineLine name "1"
  | precisions =>
    linesIf embedded ((preciseTypes features v).map fun t => s!"precision highp {t};\n")
  | uniformLayout => ["layout(std140) uniform;\n"]
  | macros => (Source.keepLast b.macros).map fun m => Source.defineLine m.name m.definition
  | position =>
    linesIf (embedded && v = ⟨3, 0⟩ && features.separablePrograms && b.stage = .vertex)
      ["out vec4 gl_Position;\n"]
  | body => [b.source]

end Section

/-- The pieces of some sections, each with its section. -/
def marked (b : BuildInfo) (v : Version) (ss : List Section) : List (Section × String) :=
  ss.flatMap fun s => (s.pieces b v).map fun piece => (s, piece)

/-- The text of some pieces. -/
def textOf (ps : List (Section × String)) : String :=
  String.join (ps.map Prod.snd)

theorem textOf_cons (p : Section × String) (ps : List (Section × String)) :
    textOf (p :: ps) = p.2 ++ textOf ps := by
  simp [textOf]

/-- The pieces of sections stand one after the other. -/
theorem marked_append (b : BuildInfo) (v : Version) (ss ts : List Section) :
    marked b v (ss ++ ts) = marked b v ss ++ marked b v ts := by
  simp [marked]

/-! ## The text as its sections -/

theorem textIf_append (b : Bool) (s t : String) : textIf b (s ++ t) = textIf b s ++ textIf b t := by
  cases b <;> simp [textIf]

theorem textIf_textIf (b c : Bool) (s : String) : textIf b (textIf c s) = textIf (b && c) s := by
  cases b <;> cases c <;> rfl

namespace Section

variable (b : BuildInfo) (v : Version)

theorem join_linesIf (c : Bool) (line : String) :
    String.join (linesIf c [line]) = textIf c line := by
  cases c <;> simp [linesIf, textIf]

/-- The extensions for the dialect of embedded devices. -/
theorem join_extensions :
    String.join (pieces b v extensions) =
      textIf (isEmbedded b.device) (embeddedExtensions b.stage b.settings.features v) := by
  simp only [pieces, embeddedExtensions, String.join_append, join_linesIf, textIf_append,
    textIf_textIf, Bool.and_assoc]

theorem join_callerExtensions :
    String.join (pieces b v callerExtensions) = Glsl.callerExtensions b.extensions := by
  cases h : b.extensions with
  | none => simp [pieces, Glsl.callerExtensions, h]
  | some text =>
    by_cases htext : text = "" <;> simp [pieces, Glsl.callerExtensions, textIf, h, htext]

/-- The definition that tells the dialect. -/
theorem join_dialect :
    String.join (pieces b v dialect) =
      if isEmbedded b.device then "#ifndef GL_ES\n#  define GL_ES 1\n#endif\n"
      else "#define DESKTOP_GL 1\n" := by
  simp only [pieces]
  split <;> rfl

theorem join_extraDefinitions :
    String.join (pieces b v extraDefinitions) = b.settings.extraDefinitions.getD "" := by
  cases h : b.settings.extraDefinitions <;> simp [pieces, h]

/-- The precisions that the dialect of embedded devices asks for. -/
theorem join_precisions :
    String.join (pieces b v precisions) =
      textIf (isEmbedded b.device) (precisionLines (preciseTypes b.settings.features v)) := by
  cases h : isEmbedded b.device <;> simp [pieces, linesIf, textIf, precisionLines, h]

end Section

/-- The text is the sections one after the other. -/
theorem header_append_source (b : BuildInfo) (v : Version) :
    header
        { stage := b.stage
          device := b.device
          settings := b.settings
          extensions := b.extensions
          macros := b.macros } v ++ b.source =
      textOf (marked b v Section.all) := by
  have hpieces : (marked b v Section.all).map Prod.snd =
      Section.all.flatMap (Section.pieces b v) := by
    simp [marked, List.map_flatMap, Function.comp_def]
  rw [textOf, hpieces]
  simp only [Section.all, List.flatMap_cons, List.flatMap_nil, String.join_append,
    Section.join_extensions, Section.join_callerExtensions, Section.join_dialect,
    Section.join_extraDefinitions, Section.join_precisions]
  simp only [Section.pieces, Section.join_linesIf, String.join_cons, String.join_nil, header,
    Source.platformLine, Source.stageLines, Source.macroLines, String.append_assoc,
    String.append_empty]

/-- A version is always found. -/
theorem exists_ends_chooseVersion (requested : DialectVersions) (compiler : TextCompiler)
    (device : Device) (most : DialectVersions) :
    ∃ v, (chooseVersion requested compiler device most).Ends (.ok v) := by
  unfold chooseVersion
  dsimp only
  split
  · split
    · exact ⟨_, (Noted.ends_warn _).bind (Noted.ends_pure _)⟩
    · exact ⟨_, Noted.ends_pure _⟩
  · split
    · exact ⟨_, Noted.ends_pure _⟩
    · exact ⟨_, Noted.ends_pure _⟩

/-- The text is made of all sections in order. -/
theorem ends_build {b : BuildInfo} (h : b.language = .unspecified ∨ b.language = .glsl)
    {v : Version} (hv : (chooseVersion b.versions b.settings.compiler b.device
      b.settings.mostVersions).Ends (.ok v)) :
    (build b).Ends (.ok (textOf (marked b v Section.all))) := by
  have hheader : (buildHeader b).Ends (.ok (header _ v)) :=
    (Traced.ends_ofNoted hv).bind (Traced.ends_pure _)
  have hbuild : build b = buildHeader b >>= fun text => pure (text ++ b.source) := by
    unfold build
    rcases h with h | h <;> rw [h]
  rw [← header_append_source, hbuild]
  exact hheader.bind (Traced.ends_pure _)

/-! ## Whole lines -/

/-- A text behind which a line begins. -/
def WholeLines (text : String) : Prop :=
  text = "" ∨ Text.endsLine text.toList

theorem wholeLines_append (s : String) {t : String} (h : Text.endsLine t.toList = true) :
    WholeLines (s ++ t) := by
  refine .inr ?_
  rw [String.toList_append]
  exact Text.endsLine_append h

/-- Behind whole lines only the last piece counts. -/
theorem WholeLines.append_iff {s t : String} (hs : WholeLines s) :
    WholeLines (s ++ t) ↔ WholeLines t := by
  by_cases ht : t = ""
  · simpa [ht] using ⟨fun _ => .inl rfl, fun _ => hs⟩
  · have hlast : t.toList ≠ [] := by simpa using ht
    simp [WholeLines, ht, Text.endsLine, hlast]

theorem wholeLines_linesIf {c : Bool} {lines : List String} (h : ∀ line ∈ lines, WholeLines line) :
    ∀ line ∈ Section.linesIf c lines, WholeLines line := by
  unfold Section.linesIf
  split
  · exact h
  · exact List.forall_mem_nil _

/-- What the builder writes is whole lines, and the extensions of the caller are so too. -/
theorem Section.wholeLines_pieces (b : BuildInfo) (v : Version) {s : Section}
    (hextra : s ≠ extraDefinitions) (hbody : s ≠ body) :
    ∀ piece ∈ s.pieces b v, WholeLines piece := by
  have hextension (c : Bool) (name : String) :
      ∀ line ∈ linesIf c [extensionLine name], WholeLines line :=
    wholeLines_linesIf (List.forall_mem_singleton.2 (wholeLines_append _ rfl))
  cases s with
  | version => exact List.forall_mem_singleton.2 (wholeLines_append _ rfl)
  | extensions =>
    simp only [pieces, List.forall_mem_append]
    exact ⟨⟨⟨hextension _ _, hextension _ _⟩, hextension _ _⟩, hextension _ _⟩
  | callerExtensions => exact List.forall_mem_map.2 fun text _ => wholeLines_append text rfl
  | dialect =>
    simp only [pieces]
    split <;> simp [WholeLines, Text.endsLine]
  | clipSpace => exact wholeLines_linesIf (List.forall_mem_singleton.2 (.inr rfl))
  | extraDefinitions => exact absurd rfl hextra
  | platform => exact List.forall_mem_singleton.2 (wholeLines_append _ rfl)
  | stage => exact List.forall_mem_map.2 fun name _ => wholeLines_append _ rfl
  | precisions =>
    exact wholeLines_linesIf (List.forall_mem_map.2 fun t _ => wholeLines_append _ rfl)
  | uniformLayout => exact List.forall_mem_singleton.2 (.inr rfl)
  | macros => exact List.forall_mem_map.2 fun m _ => wholeLines_append _ rfl
  | position => exact wholeLines_linesIf (List.forall_mem_singleton.2 (.inr rfl))
  | body => exact absurd rfl hbody

/-! ## Where the pieces begin -/

/-- Each piece begins a line behind the text and the pieces in front of it, but the platform's only
under a condition. -/
def Placed (closed : Prop) : String → List (Section × String) → Prop
  | _, [] => True
  | text, (s, piece) :: ps =>
    (WholeLines text ↔ (s = .platform → closed)) ∧ Placed closed (text ++ piece) ps

section

variable {closed : Prop} {text : String} {ps qs : List (Section × String)}

/-- Pieces are placed one after the other. -/
theorem Placed.append (hps : Placed closed text ps) (hqs : Placed closed (text ++ textOf ps) qs) :
    Placed closed text (ps ++ qs) := by
  induction ps generalizing text with
  | nil => simpa [textOf] using hqs
  | cons p ps ih =>
    refine ⟨hps.1, ih hps.2 ?_⟩
    rwa [textOf_cons, ← String.append_assoc] at hqs

/-- In front of a piece all lines are closed, save before the platform. -/
theorem Placed.front {front back : List (Section × String)} {s : Section} {piece : String}
    (h : Placed closed text (front ++ (s, piece) :: back)) :
    WholeLines (text ++ textOf front) ↔ (s = .platform → closed) := by
  induction front generalizing text with
  | nil => simpa [textOf] using h.1
  | cons p front ih =>
    have hfront := ih h.2
    rwa [String.append_assoc, ← textOf_cons] at hfront

/-- Whole lines behind whole lines. -/
theorem placed_of_wholeLines (htext : WholeLines text)
    (hps : ∀ p ∈ ps, p.1 ≠ .platform ∧ WholeLines p.2) :
    Placed closed text ps ∧ WholeLines (text ++ textOf ps) := by
  induction ps generalizing text with
  | nil => exact ⟨trivial, by simpa [textOf] using htext⟩
  | cons p ps ih =>
    obtain ⟨⟨hp, hline⟩, hps⟩ := List.forall_mem_cons.1 hps
    obtain ⟨hplaced, hwhole⟩ := ih (htext.append_iff.2 hline) hps
    rw [textOf_cons, ← String.append_assoc]
    exact ⟨⟨⟨fun _ h => absurd h hp, fun _ => htext⟩, hplaced⟩, hwhole⟩

end

variable (b : BuildInfo) (v : Version)

/-- Sections that the library writes itself are whole lines. -/
theorem wholeLines_marked (ss : List Section)
    (h : ∀ s ∈ ss, s ≠ .platform ∧ s ≠ .extraDefinitions ∧ s ≠ .body) :
    ∀ p ∈ marked b v ss, p.1 ≠ .platform ∧ WholeLines p.2 := by
  intro p hp
  obtain ⟨s, hs, hp⟩ := List.mem_flatMap.1 hp
  obtain ⟨piece, hpiece, rfl⟩ := List.mem_map.1 hp
  obtain ⟨hplatform, hextra, hbody⟩ := h s hs
  exact ⟨hplatform, s.wholeLines_pieces b v hextra hbody piece hpiece⟩

theorem textOf_marked (s : Section) : textOf (marked b v [s]) = String.join (s.pieces b v) := by
  simp [marked, textOf, Function.comp_def]

/-- What a caller adds begins on a line of its own. -/
theorem placed_extraDefinitions {closed : Prop} {text : String} (htext : WholeLines text) :
    Placed closed text (marked b v [.extraDefinitions]) := by
  have hmarked : marked b v [.extraDefinitions] =
      b.settings.extraDefinitions.toList.map fun piece => (.extraDefinitions, piece) := by
    simp [marked, Section.pieces]
  rw [hmarked]
  cases b.settings.extraDefinitions with
  | none => trivial
  | some piece => exact ⟨by simp [htext], trivial⟩

/-- Only the definitions of the caller can leave a line open for what follows. -/
theorem placed_marked :
    Placed (WholeLines (b.settings.extraDefinitions.getD "")) "" (marked b v Section.all) := by
  have hall : marked b v Section.all =
      marked b v [.version, .extensions, .callerExtensions, .dialect, .clipSpace] ++
        (marked b v [.extraDefinitions] ++
          (marked b v [.platform] ++
            (marked b v [.stage, .precisions, .uniformLayout, .macros, .position] ++
              marked b v [.body]))) := by
    simp only [← marked_append]
    rfl
  rw [hall]
  obtain ⟨hopening, hwhole⟩ := placed_of_wholeLines (.inl rfl)
    (wholeLines_marked b v [.version, .extensions, .callerExtensions, .dialect, .clipSpace]
      (by decide))
  refine hopening.append ((placed_extraDefinitions b v hwhole).append ?_)
  -- the line of the platform is whole, whatever stands in front of it
  have hplatform (text : String) : WholeLines (text ++ textOf (marked b v [.platform])) := by
    refine wholeLines_append text ?_
    simp [textOf_marked, Section.pieces, Source.defineLine, Text.endsLine]
  obtain ⟨hclosing, hwhole'⟩ := placed_of_wholeLines (hplatform _)
    (wholeLines_marked b v [.stage, .precisions, .uniformLayout, .macros, .position] (by decide))
  refine Placed.append ⟨?_, trivial⟩ (hclosing.append ⟨?_, trivial⟩)
  · rw [hwhole.append_iff, textOf_marked, Section.join_extraDefinitions]
    simp
  · exact ⟨fun _ h => absurd h (by decide), fun _ => hwhole'⟩

/-- The text of a body in GLSL is its sections in their order, each under its condition. Each piece
begins a line, except for the line of the platform behind definitions that do not end with a
newline. -/
theorem build_sections (h : b.language = .unspecified ∨ b.language = .glsl) :
    ∃ v, (chooseVersion b.versions b.settings.compiler b.device
        b.settings.mostVersions).Ends (.ok v) ∧
      (build b).Ends (.ok (textOf (marked b v Section.all))) ∧
      ∀ front s piece back, marked b v Section.all = front ++ (s, piece) :: back →
        (WholeLines (textOf front) ↔
          (s = .platform → WholeLines (b.settings.extraDefinitions.getD ""))) := by
  obtain ⟨v, hv⟩ := exists_ends_chooseVersion b.versions b.settings.compiler b.device
    b.settings.mostVersions
  refine ⟨v, hv, ends_build h hv, ?_⟩
  intro front s piece back hsplit
  have hplaced := placed_marked b v
  rw [hsplit] at hplaced
  simpa using hplaced.front

/-- A vertex shader for an embedded device, with extensions that have no newline. -/
def embeddedText : BuildInfo where
  shader := "S"
  stage := .vertex
  source := "void main() {}\n"
  macros := [{ name := "A", definition := "1" }, { name := "A", definition := "2" }]
  extensions := some "#extension GL_EXT_texture_buffer : require"
  device := .openGles
  settings :=
    { features := { separablePrograms := true }
      extraDefinitions := some "#define B 1\n" }

/-- A text for an embedded device: the platform stands behind seven pieces. -/
theorem build_sections_embedded :
    embeddedText.language = .glsl ∧
    (build embeddedText).Ends (.ok (textOf (marked embeddedText ⟨3, 0⟩ Section.all))) ∧
    WholeLines (textOf ((marked embeddedText ⟨3, 0⟩ Section.all).take 7)) ∧
    (marked embeddedText ⟨3, 0⟩ Section.all)[7]? = some (.platform, Source.platformLine) := by
  obtain ⟨v, hv, hbuild, hlines⟩ := build_sections embeddedText (.inr rfl)
  obtain rfl : ⟨3, 0⟩ = v := Except.ok.inj hv.outcome_eq
  have hsplit : marked embeddedText ⟨3, 0⟩ Section.all =
      (marked embeddedText ⟨3, 0⟩ Section.all).take 7 ++ (.platform, Source.platformLine) ::
        (marked embeddedText ⟨3, 0⟩ Section.all).drop 8 := by
    decide +kernel
  have hclosed : WholeLines (embeddedText.settings.extraDefinitions.getD "") :=
    .inr (by decide +kernel)
  exact ⟨rfl, hbuild, (hlines _ _ _ _ hsplit).2 fun _ => hclosed, by decide +kernel⟩

/-- A text with definitions that have no newline. -/
def openText : BuildInfo where
  shader := "S"
  stage := .vertex
  source := "void main() {}\n"
  device := .openGl
  settings := { extraDefinitions := some "#define A 1" }

/-- The definitions take the line of the platform in. -/
theorem build_openDefinitions :
    (build openText).Ends (.ok ("#version 430 core\n#define DESKTOP_GL 1\n" ++
      "#define A 1#define PLATFORM_LINUX 1\n#define VERTEX_SHADER 1\n" ++
      "layout(std140) uniform;\nvoid main() {}\n")) ∧
    ∃ front back,
      marked openText ⟨4, 3⟩ Section.all = front ++ (.platform, Source.platformLine) :: back ∧
      ¬ WholeLines (textOf front) := by
  have htext : textOf (marked openText ⟨4, 3⟩ Section.all) =
      "#version 430 core\n#define DESKTOP_GL 1\n" ++
      "#define A 1#define PLATFORM_LINUX 1\n#define VERTEX_SHADER 1\n" ++
      "layout(std140) uniform;\nvoid main() {}\n" := by
    decide +kernel
  rw [← htext]
  refine ⟨ends_build (.inr rfl) (Noted.ends_pure _), (marked openText ⟨4, 3⟩ Section.all).take 3,
    (marked openText ⟨4, 3⟩ Section.all).drop 4, by decide +kernel, ?_⟩
  unfold WholeLines
  decide +kernel

end Glsl

end ShaderBind
