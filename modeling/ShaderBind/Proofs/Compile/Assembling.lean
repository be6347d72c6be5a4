import ShaderBind.Proofs.Compile.Progress
import ShaderBind.Proofs.Compile.Submission

/-!
# Assembly while shaders are compiled

However a pipeline's task, its shaders and those who wait for it take turns, the outcome is the one
of an assembly after all shaders (`Submission.sequential`). A shader answers the task with the
outcome of its compile and with nothing else, so what the task has gathered, with what it still has
to gather, comes to the same as all outcomes in order (`Assembler.Fits`). It is enough to gather up
to the first failure (`Assembly.compiledAll_append_error`). From then on the task goes through the
steps of the assembly, and what it has changed is what the steps that it took change: so the outcome
goes to the caller once, before it goes into the slot, and whether the caller crashes is not asked
(`Assembler.Fits.finishing_cases`). `Assembling.assembly_agrees` puts this together.
-/

namespace ShaderBind

/-! ## Outcomes in order -/

namespace Assembly

variable {a : Assembly} {outcomes outcomes' : List Outcome}

/-- Shaders that all compiled are gathered in order. -/
theorem compiledAll_map_ok (compiled : List Compiled) :
    compiledAll (compiled.map .ok) = .ok compiled := by
  induction compiled with
  | nil => rfl
  | cons c compiled ih =>
    rw [List.map_cons, compiledAll, ih]
    rfl

/-- The first failure stops the gathering. -/
theorem compiledAll_append_error (front : List Outcome) (e : ShaderError) (back : List Outcome) :
    compiledAll (front ++ .error e :: back) = compiledAll (front ++ [.error e]) := by
  induction front with
  | nil => rfl
  | cons outcome front ih =>
    rw [List.cons_append, List.cons_append, compiledAll, compiledAll, ih]

/-- What comes after the first failure does not count. -/
theorem compiledAll_of_first_error {front back : List Outcome} {e : ShaderError}
    (hfront : ∀ o ∈ front, ∃ c, o = .ok c) :
    compiledAll (front ++ .error e :: back) = .error e := by
  induction front with
  | nil => rfl
  | cons outcome front ih =>
    obtain ⟨⟨c, rfl⟩, hrest⟩ := List.forall_mem_cons.1 hfront
    rw [List.cons_append, compiledAll, ih hrest]
    rfl

/-- Only what comes of the gathering counts for the outcome. -/
theorem outcome_congr (h : compiledAll outcomes = compiledAll outcomes') :
    a.outcome outcomes = a.outcome outcomes' := by
  rw [outcome, outcome, assemble, assemble, h]

/-- A pipeline fails with the failure of its first shader that failed. -/
theorem outcome_of_error {e : ShaderError} (h : compiledAll outcomes = .error e) :
    (a.outcome outcomes).1 = .error e := by
  rw [outcome, assemble, h]
  rfl

/-- A pipeline whose shaders all compiled is remapped as a whole. -/
theorem outcome_of_ok {compiled : List Compiled} (h : compiledAll outcomes = .ok compiled) :
    (a.outcome outcomes).1 =
      ((RemappedPipeline.build a.name compiled a.remapper a.device).outcome.1).mapError
        (Stop.caught a.name .assembly) := by
  have hassemble : (a.assemble outcomes).outcome =
      (RemappedPipeline.build a.name compiled a.remapper a.device).outcome := by
    rw [assemble, h]
    rfl
  rw [outcome, hassemble]
  obtain ⟨result, warnings⟩ :=
    (RemappedPipeline.build a.name compiled a.remapper a.device).outcome
  cases result with
  | ok pipeline => rfl
  | error stop => rfl

/-- The caller is called with the outcome, in its own state; a crash leaves one warning. -/
theorem tell_run {σ : Type} (a : Assembly) (onComplete : Callback σ) (o : PipelineOutcome) (c : σ) :
    ((a.tell onComplete o).run c).2 = ((onComplete o).run.run c).2 ∧
      (((onComplete o).run.run c).1 = .ok () → ((a.tell onComplete o).run c).1 = []) ∧
      ∀ crash, ((onComplete o).run.run c).1 = .error crash →
        ((a.tell onComplete o).run c).1 =
          [(ShaderError.crashed a.name .callback crash).message] := by
  rw [tell, StateT.run_bind]
  generalize (onComplete o).run.run c = called
  obtain ⟨result, c'⟩ := called
  cases result with
  | ok => exact ⟨rfl, fun _ => rfl, fun _ hcrash => by cases hcrash⟩
  | error crash =>
    refine ⟨rfl, fun hok => ?_, fun crash' hcrash => ?_⟩
    · cases hok
    · obtain rfl := Except.error.inj hcrash
      rfl

end Assembly

/-! ## What the assembly changes -/

namespace Submission

variable {κ σ : Type}

/-- The outcome of an assembly after all shaders. -/
def outcome (s : Submission κ σ) : PipelineOutcome :=
  (s.assembly.outcome (s.outcomesOf s.shaders)).1

/-- What the caller does when it is told, and its state after that. -/
def told (s : Submission κ σ) : Except Crash Unit × σ :=
  (s.onComplete s.outcome).run.run s.caller

/-- The steps of an assembly after all shaders. -/
def steps (s : Submission κ σ) : List AssemblyStep :=
  s.assembly.runSteps (s.outcomesOf s.shaders)

/-- What the first steps of an assembly change. -/
def after (s : Submission κ σ) (done : List AssemblyStep) : AssemblyState σ :=
  done.foldl (s.assembly.step s.onComplete) s.initial

theorem slot_sequential (s : Submission κ σ) : s.sequential.slot = some s.outcome :=
  rfl

/-- After the assembly the caller is as one call with the outcome leaves it. -/
theorem caller_sequential (s : Submission κ σ) : s.sequential.caller = s.told.2 :=
  (s.assembly.tell_run s.onComplete s.outcome s.caller).1

/-- The warnings of the remapping, and one more if the caller crashed. -/
theorem warnings_sequential (s : Submission κ σ) :
    (s.told.1 = .ok () →
      s.sequential.warnings = (s.assembly.outcome (s.outcomesOf s.shaders)).2) ∧
    ∀ crash, s.told.1 = .error crash →
      s.sequential.warnings = (s.assembly.outcome (s.outcomesOf s.shaders)).2 ++
        [(ShaderError.crashed s.assembly.name .callback crash).message] := by
  obtain ⟨-, hok, hcrash⟩ := s.assembly.tell_run s.onComplete s.outcome s.caller
  have hwarnings : s.sequential.warnings = (s.assembly.outcome (s.outcomesOf s.shaders)).2 ++
      ((s.assembly.tell s.onComplete s.outcome).run s.caller).1 := rfl
  refine ⟨fun htold => ?_, fun crash htold => ?_⟩
  · rw [hwarnings, hok htold, List.append_nil]
  · rw [hwarnings, hcrash crash htold]

end Submission

/-! ## What every schedule keeps -/

open Assembly

/-- The shader that the task waits for. -/
def Assembler.awaited? {κ : Type} : Assembler κ → Option κ
  | .awaiting _ k _ => some k
  | _ => none

/-- Whether those who sleep have been woken. -/
def Assembler.notified {κ : Type} : Assembler κ → Bool
  | .finishing [] => true
  | _ => false

/-- What has changed at a place of the task. What the task still gathers comes to the same as all
outcomes. -/
def Assembler.Fits {κ σ : Type} (s : Submission κ σ) (p : AssemblyState σ) : Assembler κ → Prop
  | .gathering got rest =>
    compiledAll (got ++ s.outcomesOf rest) = compiledAll (s.outcomesOf s.shaders) ∧ p = s.initial
  | .awaiting got k rest =>
    compiledAll (got ++ s.outcomesOf (k :: rest)) = compiledAll (s.outcomesOf s.shaders) ∧
      p = s.initial
  | .finishing rest => ∃ done, s.steps = done ++ rest ∧ p = s.after done

namespace Assembler.Fits

variable {κ σ : Type} {s : Submission κ σ} {t : Assembler κ} {p : AssemblyState σ}

/-- The caller is told before the slot is written, and those who wait are woken after that. -/
theorem finishing_cases {rest : List AssemblyStep}
    (h : (Assembler.finishing rest : Assembler κ).Fits s p) :
    (p.slot = none ∧ p.caller = s.caller ∧
      ∃ step step' later, rest = step :: step' :: later ∧ step.wakes = false) ∨
    (p.slot = none ∧ p.caller = s.told.2 ∧ rest = [.write s.outcome, .notify]) ∨
    (p = s.sequential ∧ (rest = [.notify] ∨ rest = [])) := by
  obtain ⟨done, hsteps, rfl⟩ := h
  have hsteps' : s.steps = [.warn (s.assembly.outcome (s.outcomesOf s.shaders)).2,
    .tell s.outcome, .write s.outcome, .notify] := rfl
  -- how many of the four steps are done
  rcases done with _ | ⟨a, _ | ⟨b, _ | ⟨c, _ | ⟨d, done⟩⟩⟩⟩
  · exact .inl ⟨rfl, rfl, _, _, _, hsteps.symm.trans hsteps', rfl⟩
  all_goals
    rw [hsteps'] at hsteps
    simp only [List.cons_append, List.nil_append, List.cons.injEq] at hsteps
  · obtain ⟨rfl, rfl⟩ := hsteps
    exact .inl ⟨rfl, rfl, _, _, _, rfl, rfl⟩
  · obtain ⟨rfl, rfl, rfl⟩ := hsteps
    exact .inr (.inl ⟨rfl, s.caller_sequential, rfl⟩)
  · obtain ⟨rfl, rfl, rfl, rfl⟩ := hsteps
    exact .inr (.inr ⟨rfl, .inl rfl⟩)
  · obtain ⟨rfl, rfl, rfl, rfl, hnil⟩ := hsteps
    obtain ⟨rfl, rfl⟩ := List.append_eq_nil_iff.1 hnil.symm
    exact .inr (.inr ⟨rfl, .inr rfl⟩)

/-- Before the slot is written nobody has been woken; after that only this is left to do. -/
theorem slot_cases (h : t.Fits s p) :
    (p.slot = none ∧ t.notified = false) ∨
      (p = s.sequential ∧ (t = .finishing [.notify] ∨ t = .finishing [])) := by
  cases t with
  | gathering got rest => exact .inl ⟨h.2 ▸ rfl, rfl⟩
  | awaiting got k rest => exact .inl ⟨h.2 ▸ rfl, rfl⟩
  | finishing rest =>
    rcases h.finishing_cases with ⟨hslot, -, _, _, _, rfl, -⟩ | ⟨hslot, -, rfl⟩ | ⟨hp, hrest⟩
    · exact .inl ⟨hslot, rfl⟩
    · exact .inl ⟨hslot, rfl⟩
    · exact .inr ⟨hp, hrest.imp (congrArg _) (congrArg _)⟩

/-- Wherever the task is, the caller was called once at most. -/
theorem caller_eq (h : t.Fits s p) : p.caller = s.caller ∨ p.caller = s.told.2 := by
  cases t with
  | gathering got rest => exact .inl (h.2 ▸ rfl)
  | awaiting got k rest => exact .inl (h.2 ▸ rfl)
  | finishing rest =>
    rcases h.finishing_cases with ⟨-, hcaller, -⟩ | ⟨-, hcaller, -⟩ | ⟨rfl, -⟩
    · exact .inl hcaller
    · exact .inr hcaller
    · exact .inr s.caller_sequential

/-- Once the outcome is in the slot, all is as an assembly after all shaders leaves it. -/
theorem of_slot {o : PipelineOutcome} (h : t.Fits s p) (hslot : p.slot = some o) :
    p = s.sequential ∧ (t = .finishing [.notify] ∨ t = .finishing []) := by
  refine h.slot_cases.resolve_left fun ⟨hnone, _⟩ => ?_
  rw [hnone] at hslot
  cases hslot

theorem notified_eq (h : t.Fits s p) (hslot : p.slot = none) : t.notified = false := by
  refine (h.slot_cases.resolve_right ?_).2
  rintro ⟨rfl, -⟩
  cases hslot

/-- The next step writes the slot or comes before that, and wakes nobody; or it is the last. -/
theorem step_cases {step : AssemblyStep} {rest : List AssemblyStep}
    (h : (Assembler.finishing (step :: rest) : Assembler κ).Fits s p) :
    (p.slot = none ∧ step.wakes = false ∧ rest ≠ []) ∨ (step = .notify ∧ rest = []) := by
  rcases h.finishing_cases with ⟨hslot, -, _, _, _, hrest, hwakes⟩ | ⟨hslot, -, hrest⟩ |
    ⟨-, hrest | hrest⟩
  · obtain ⟨rfl, rfl⟩ := List.cons.inj hrest
    exact .inl ⟨hslot, hwakes, List.cons_ne_nil _ _⟩
  · obtain ⟨rfl, rfl⟩ := List.cons.inj hrest
    exact .inl ⟨hslot, rfl, List.cons_ne_nil _ _⟩
  · exact .inr (List.cons.inj hrest)
  · cases hrest

/-- A step that is taken is one of the steps that are done. -/
theorem advance {step : AssemblyStep} {rest : List AssemblyStep}
    (h : (Assembler.finishing (step :: rest) : Assembler κ).Fits s p) :
    (Assembler.finishing rest : Assembler κ).Fits s (s.assembly.step s.onComplete p step) := by
  obtain ⟨done, hsteps, rfl⟩ := h
  refine ⟨done ++ [step], by simp [hsteps], ?_⟩
  rw [Submission.after, Submission.after, List.foldl_append]
  rfl

end Assembler.Fits

/-- One who sleeps has not been woken, and one who was answered was told what is in the slot. -/
def Waiter.Fits (slot : Option PipelineOutcome) (notified : Bool) : Waiter → Prop
  | .parked => notified = false
  | .answered outcome => slot = some outcome
  | _ => True

/-- A write into an empty slot does no harm to those who wait. -/
theorem Waiter.Fits.write {notified : Bool} {r : Waiter} (h : r.Fits none notified)
    (slot : Option PipelineOutcome) : r.Fits slot notified := by
  cases r with
  | answered outcome => cases h
  | _ => exact h

/-- Nobody sleeps who was woken. -/
theorem Waiter.Fits.woken {slot : Option PipelineOutcome} {notified : Bool} {r : Waiter}
    (h : r.Fits slot notified) : r.woken.Fits slot true := by
  cases r with
  | answered outcome => exact h
  | _ => trivial

namespace Assembling

variable {κ ι σ : Type}

/-- What is still to be gathered after an outcome comes to the same as before it. -/
theorem compiledAll_remaining (s : Submission κ σ) (got : List Outcome) (k : κ) (rest : List κ) :
    compiledAll (got ++ [(s.jobs k).outcome] ++
        s.outcomesOf (remaining (s.jobs k).outcome rest)) =
      compiledAll (got ++ s.outcomesOf (k :: rest)) := by
  have hcons : s.outcomesOf (k :: rest) = (s.jobs k).outcome :: s.outcomesOf rest := rfl
  rw [hcons]
  cases (s.jobs k).outcome with
  | ok compiled => simp [remaining]
  | error e =>
    rw [compiledAll_append_error]
    simp [remaining, Submission.outcomesOf]

/-- All shaders are sound, the task reads the one that it waits for and no other, and the slot and
all answers are as the place of the task says. -/
structure Sound (s : Submission κ σ) (w : Assembling κ ι σ) : Prop where
  shaders : ∀ k, Watched.Sound (s.jobs k) (w.shaders k)
  awaited : ∀ k, w.assembler.awaited? = some k → ((w.shaders k).readers none).waiting = true
  others : ∀ k, w.assembler.awaited? ≠ some k → ((w.shaders k).readers none).resting = true
  place : w.assembler.Fits s w.state
  waiters : ∀ i, (w.waiters i).Fits w.state.slot w.assembler.notified
  answers : ∀ a ∈ w.answers, w.state.slot = some a.2

namespace Sound

variable {s : Submission κ σ} {w : Assembling κ ι σ}

theorem start (s : Submission κ σ) : Sound s (Assembling.start s : Assembling κ ι σ) where
  shaders k := .start (s.jobs k)
  awaited _ hk := by cases hk
  others _ _ := rfl
  place := ⟨rfl, rfl⟩
  waiters _ := trivial
  answers := by simp [Assembling.start]

/-- The task is answered with the outcome of the shader's own compile. -/
theorem outcome_of_answered {k : κ} {q : Query} {o : Outcome} (h : Sound s w)
    (hw : w.assembler.awaited? = some k)
    (hr : (w.shaders k).readers none = .answered q (.outcome o)) : o = (s.jobs k).outcome := by
  have hwaiting := h.awaited k hw
  obtain rfl : q = .wait := by simpa [hr, Reader.waiting] using hwaiting
  have hheard := (h.shaders k).heard_of_answered hr
  rw [Watched.Sound.Heard, hr] at hheard
  simpa using hheard

/-- The task goes on and reads no shader, neither before nor after. -/
theorem proceed (h : Sound s w) (hw : w.assembler.awaited? = none) {w' : Assembling κ ι σ}
    (hshaders : w'.shaders = w.shaders) (hw' : w'.assembler.awaited? = none)
    (hplace : w'.assembler.Fits s w'.state)
    (hwaiters : ∀ i, (w'.waiters i).Fits w'.state.slot w'.assembler.notified)
    (hanswers : ∀ a ∈ w'.answers, w'.state.slot = some a.2) : Sound s w' where
  shaders := by rw [hshaders]; exact h.shaders
  awaited k hk := by rw [hw'] at hk; cases hk
  others k _ := by rw [hshaders]; exact h.others k (by simp [hw])
  place := hplace
  waiters := hwaiters
  answers := hanswers

theorem move [DecidableEq ι] (h : Sound s w) (i : ι) {r : Waiter}
    (hr : r.Fits w.state.slot w.assembler.notified) : Sound s (w.move i r) :=
  { h with
    waiters := (Function.forall_update_iff w.waiters fun _ r =>
      r.Fits w.state.slot w.assembler.notified).2 ⟨hr, fun i _ => h.waiters i⟩ }

theorem wait [DecidableEq ι] (h : Sound s w) (i : ι) : Sound s (w.wait i) := by
  unfold Assembling.wait
  split
  · exact h.move i trivial
  · exact h.move i trivial
  · exact h

/-- One who looks into an empty slot goes to sleep before anybody was woken. -/
theorem look [DecidableEq ι] (h : Sound s w) (i : ι) : Sound s (w.look i) := by
  unfold Assembling.look
  split
  next =>
    split
    next outcome hslot =>
      refine { h.move (r := .answered outcome) i hslot with answers := ?_ }
      exact List.forall_mem_append.2 ⟨h.answers, List.forall_mem_singleton.2 hslot⟩
    next hslot => exact h.move i (h.place.notified_eq hslot)
  next => exact h

variable [DecidableEq κ]

/-- A shader goes on, and the task still reads it or still does not. -/
theorem put (h : Sound s w) {k : κ} {v : Watched (Option ι)} (hv : Watched.Sound (s.jobs k) v)
    (hkeeps : ((w.shaders k).readers none).Keeps (v.readers none)) : Sound s (w.put k v) :=
  { h with
    shaders := (Function.forall_update_iff w.shaders fun k v => Watched.Sound (s.jobs k) v).2
      ⟨hv, fun k _ => h.shaders k⟩
    awaited := (Function.forall_update_iff w.shaders fun k v =>
        w.assembler.awaited? = some k → (v.readers none).waiting = true).2
      ⟨fun hk => hkeeps.1 (h.awaited k hk), fun k _ => h.awaited k⟩
    others := (Function.forall_update_iff w.shaders fun k v =>
        w.assembler.awaited? ≠ some k → (v.readers none).resting = true).2
      ⟨fun hk => hkeeps.2 (h.others k hk), fun k _ => h.others k⟩ }

variable [DecidableEq ι]

/-- The task begins to wait for a shader. -/
theorem advance_ask {got : List Outcome} {k : κ} {rest : List κ} (h : Sound s w)
    (hw : w.assembler = .gathering got (k :: rest)) : Sound s (w.advance s) := by
  have hplace := h.place
  have hwaiters := h.waiters
  have hothers : ∀ k, ((w.shaders k).readers none).resting = true := fun k =>
    h.others k (by simp [hw, Assembler.awaited?])
  rw [hw] at hplace hwaiters
  rw [Assembling.advance, hw]
  refine { h with
    shaders := (Function.forall_update_iff w.shaders fun k v => Watched.Sound (s.jobs k) v).2
      ⟨(h.shaders k).ask none .wait, fun k _ => h.shaders k⟩
    awaited := ?_
    others := ?_
    place := hplace
    waiters := hwaiters }
  · intro k' hk
    obtain rfl : k = k' := Option.some.inj hk
    simp [Assembling.put, Watched.readers_ask_of_resting (hothers k), Query.begin, Reader.waiting]
  · intro k' hk
    have hne : k' ≠ k := fun heq => hk (congrArg some heq.symm)
    simpa [Assembling.put, Function.update_of_ne hne] using hothers k'

/-- The task takes the outcome of the shader that it waited for. -/
theorem advance_take {got : List Outcome} {k : κ} {rest : List κ} (h : Sound s w)
    (hw : w.assembler = .awaiting got k rest) : Sound s (w.advance s) := by
  have hplace := h.place
  have hwaiters := h.waiters
  have hawaited : w.assembler.awaited? = some k := by rw [hw]; rfl
  rw [hw] at hplace hwaiters
  rw [Assembling.advance, hw]
  dsimp only
  split
  next q o hr =>
    obtain rfl := h.outcome_of_answered hawaited hr
    refine { h with
      awaited := fun _ hk => by cases hk
      others := fun k' _ => ?_
      place := ⟨(compiledAll_remaining s got k rest).trans hplace.1, hplace.2⟩
      waiters := hwaiters }
    rcases eq_or_ne k' k with rfl | hne
    · simp [hr, Reader.resting]
    · exact h.others k' (by rw [hawaited]; simp [hne.symm])
  next => exact h

/-- The task takes a step of the assembly. -/
theorem advance_finish {step : AssemblyStep} {rest : List AssemblyStep} (h : Sound s w)
    (hw : w.assembler = .finishing (step :: rest)) : Sound s (w.advance s) := by
  have hplace := h.place
  have hwaiters := h.waiters
  have hanswers := h.answers
  rw [hw] at hplace hwaiters
  rw [Assembling.advance, hw]
  dsimp only
  rcases hplace.step_cases with ⟨hslot, hwakes, hrest⟩ | ⟨rfl, rfl⟩
  · rw [hslot] at hwaiters hanswers
    obtain ⟨step', later, rfl⟩ := List.exists_cons_of_ne_nil hrest
    refine h.proceed (by rw [hw]; rfl) rfl rfl hplace.advance (fun i => ?_) fun a ha => ?_
    · rw [if_neg (by simp [hwakes])]
      exact (hwaiters i).write _
    · cases hanswers a ha
  · exact h.proceed (by rw [hw]; rfl) rfl rfl hplace.advance (fun i => (hwaiters i).woken) hanswers

/-- A step of the task keeps a sound pipeline sound. -/
theorem advance (h : Sound s w) : Sound s (w.advance s) := by
  cases hw : w.assembler with
  | gathering got rest =>
    cases rest with
    | cons k rest => exact h.advance_ask hw
    | nil =>
      have hplace := h.place
      have hwaiters := h.waiters
      rw [hw] at hplace hwaiters
      obtain ⟨hgot, hstate⟩ := hplace
      have hsteps : s.steps = s.assembly.runSteps got := by
        have houtcome := outcome_congr (a := s.assembly) hgot
        rw [Submission.outcomesOf, List.map_nil, List.append_nil] at houtcome
        rw [Submission.steps, runSteps, runSteps, houtcome]
      have hnotified : (Assembler.finishing (s.assembly.runSteps got) : Assembler κ).notified =
          false := rfl
      rw [Assembling.advance, hw]
      exact h.proceed (by rw [hw]; rfl) rfl rfl ⟨[], hsteps, hstate⟩
        (fun i => hnotified ▸ hwaiters i) h.answers
  | awaiting got k rest => exact h.advance_take hw
  | finishing rest =>
    cases rest with
    | cons step rest => exact h.advance_finish hw
    | nil => rw [Assembling.advance, hw]; exact h

/-- Every step keeps a sound pipeline sound. -/
theorem step (h : Sound s w) (turn : PipelineTurn κ ι) : Sound s (w.step s turn) := by
  cases turn with
  | runner k => exact h.put (h.shaders k).advance ((w.shaders k).keeps_advance none)
  | ask k i q =>
    refine h.put ((h.shaders k).ask (some i) q) ?_
    rw [Watched.readers_ask_of_ne _ (Option.some_ne_none i).symm]
    exact .refl _
  | reader k i => exact h.put ((h.shaders k).read i) ((w.shaders k).keeps_read none i)
  | assembler => exact h.advance
  | wait i => exact h.wait i
  | waiter i => exact h.look i

/-- All steps together do. -/
theorem foldl (h : Sound s w) (turns : List (PipelineTurn κ ι)) :
    Sound s (turns.foldl (Assembling.step s) w) := by
  induction turns generalizing w with
  | nil => exact h
  | cons turn turns ih => exact ih (h.step turn)

end Sound

variable [DecidableEq κ] [DecidableEq ι]

theorem run_append (s : Submission κ σ) (schedule later : List (PipelineTurn κ ι)) :
    run s (schedule ++ later) = later.foldl (step s) (run s schedule) := by
  rw [run, List.foldl_append]
  rfl

/-- Every schedule leads to a sound pipeline. -/
theorem sound_run (s : Submission κ σ) (schedule : List (PipelineTurn κ ι)) :
    Sound s (run s schedule) :=
  (Sound.start s).foldl schedule

/-- Once the slot is written nothing else is. -/
theorem state_step {s : Submission κ σ} {w : Assembling κ ι σ} {o : PipelineOutcome}
    (h : Sound s w) (hslot : w.state.slot = some o) (turn : PipelineTurn κ ι) :
    (w.step s turn).state = w.state := by
  cases turn with
  | assembler =>
    rw [step, advance]
    obtain ⟨-, hw | hw⟩ := h.place.of_slot hslot
    · rw [hw]
      rfl
    · rw [hw]
  | wait i =>
    rw [step, wait]
    split <;> rfl
  | waiter i =>
    rw [step, look]
    split
    · split <;> rfl
    · rfl
  | _ => rfl

/-- What a pipeline has changed when its slot is written stays for good. -/
theorem state_run_append {s : Submission κ σ} {schedule : List (PipelineTurn κ ι)}
    {o : PipelineOutcome} (hslot : (run s schedule).state.slot = some o)
    (later : List (PipelineTurn κ ι)) :
    (run s (schedule ++ later)).state = (run s schedule).state := by
  induction later using List.reverseRecOn with
  | nil => rw [List.append_nil]
  | append_singleton later turn ih =>
    rw [← List.append_assoc, run_append s (schedule ++ later)]
    exact (state_step (sound_run s _) (ih ▸ hslot) turn).trans ih

/-! ## What is still to come -/

/-- Steps lead to a world of the given kind. -/
def Reaches (s : Submission κ σ) (w : Assembling κ ι σ) (p : Assembling κ ι σ → Prop) : Prop :=
  ∃ turns : List (PipelineTurn κ ι), p (turns.foldl (step s) w)

namespace Reaches

variable {s : Submission κ σ} {w : Assembling κ ι σ} {p : Assembling κ ι σ → Prop}

theorem here (h : p w) : Reaches s w p :=
  ⟨[], h⟩

/-- What can be reached later can be reached now. -/
theorem of_foldl (turns : List (PipelineTurn κ ι)) (h : Reaches s (turns.foldl (step s) w) p) :
    Reaches s w p := by
  obtain ⟨later, h⟩ := h
  exact ⟨turns ++ later, by rwa [List.foldl_append]⟩

theorem advance (h : Reaches s (w.advance s) p) : Reaches s w p :=
  h.of_foldl [.assembler]

/-- Where a shader of the pipeline can go, the pipeline can go with it. -/
theorem of_moves {k : κ} {v : Watched (Option ι)}
    (hmoves : Watched.Moves (w.shaders k) v) (h : Reaches s (w.put k v) p) :
    Reaches s w p := by
  suffices ∃ turns : List (PipelineTurn κ ι), turns.foldl (step s) w = w.put k v by
    obtain ⟨turns, hturns⟩ := this
    exact .of_foldl turns (hturns ▸ h)
  clear h
  induction hmoves with
  | refl => exact ⟨[], by simp [put]⟩
  | tail _ hmove ih =>
    obtain ⟨turns, hturns⟩ := ih
    rcases hmove with rfl | ⟨i, rfl⟩
    · exact ⟨turns ++ [.runner k], by simp [hturns, step, put]⟩
    · exact ⟨turns ++ [.reader k i], by simp [hturns, step, put]⟩

end Reaches

namespace Sound

variable {s : Submission κ σ} {w : Assembling κ ι σ}

/-! ### The task -/

/-- The steps of an assembly can be taken one after the other. -/
theorem reaches_ended_of_finishing {rest : List AssemblyStep} (hw : w.assembler = .finishing rest) :
    Reaches s w fun w' => w'.assembler = .finishing [] := by
  induction rest generalizing w with
  | nil => exact .here hw
  | cons step rest ih =>
    have hw' : (w.advance s).assembler = .finishing rest := by simp [Assembling.advance, hw]
    exact .advance (ih hw')

theorem reaches_ended_of_gathered {got : List Outcome} (hw : w.assembler = .gathering got []) :
    Reaches s w fun w' => w'.assembler = .finishing [] := by
  have hw' : (w.advance s).assembler = .finishing (s.assembly.runSteps got) := by
    simp [Assembling.advance, hw]
  exact .advance (reaches_ended_of_finishing hw')

/-- The task can go on with the outcome of the shader that it waits for. -/
theorem reaches_gathering {got : List Outcome} {k : κ} {rest : List κ} (h : Sound s w)
    (hw : w.assembler = .awaiting got k rest) :
    Reaches s w fun w' => Sound s w' ∧ w'.assembler =
      .gathering (got ++ [(s.jobs k).outcome]) (remaining (s.jobs k).outcome rest) := by
  have hwaiting := h.awaited k (by rw [hw]; rfl)
  obtain ⟨v, hmoves, hheard⟩ := (h.shaders k).leads_heard hwaiting
  have hreader : v.readers none = .answered .wait (.outcome (s.jobs k).outcome) := hheard
  have hkeeps : ((w.shaders k).readers none).Keeps (v.readers none) := by
    rw [hreader]
    exact ⟨fun _ => rfl, fun _ => rfl⟩
  have hput : Sound s (w.put k v) := h.put ((h.shaders k).moves hmoves) hkeeps
  refine .of_moves hmoves (.advance (.here ⟨hput.advance, ?_⟩))
  simp [Assembling.advance, Assembling.put, hw, hreader]

/-- The shaders can be waited for one after the other. -/
theorem reaches_ended_of_gathering {got : List Outcome} {rest : List κ} (h : Sound s w)
    (hw : w.assembler = .gathering got rest) :
    Reaches s w fun w' => w'.assembler = .finishing [] := by
  induction rest generalizing w got with
  | nil => exact reaches_ended_of_gathered hw
  | cons k rest ih =>
    have hw' : (w.advance s).assembler = .awaiting got k rest := by simp [Assembling.advance, hw]
    obtain ⟨turns, h₁, hw₁⟩ := h.advance.reaches_gathering hw'
    refine .advance (.of_foldl turns ?_)
    -- after a failure nothing is left to wait for
    cases ho : (s.jobs k).outcome with
    | ok compiled =>
      rw [ho, remaining] at hw₁
      exact ih h₁ hw₁
    | error e =>
      rw [ho, remaining] at hw₁
      exact reaches_ended_of_gathered hw₁

/-- The task can come to its end. -/
theorem reaches_ended (h : Sound s w) : Reaches s w fun w' => w'.assembler = .finishing [] := by
  cases hw : w.assembler with
  | gathering got rest => exact h.reaches_ended_of_gathering hw
  | awaiting got k rest =>
    obtain ⟨turns, h₁, hw₁⟩ := h.reaches_gathering hw
    exact .of_foldl turns (h₁.reaches_ended_of_gathering hw₁)
  | finishing rest => exact reaches_ended_of_finishing hw

omit [DecidableEq κ] [DecidableEq ι] in
/-- A task that has ended left the outcome in the slot. -/
theorem slot_of_ended (h : Sound s w) (hended : w.assembler = .finishing []) :
    w.state.slot = some s.outcome := by
  have hplace := h.place
  rw [hended] at hplace
  rcases hplace.slot_cases with ⟨-, hnotified⟩ | ⟨hstate, -⟩
  · cases hnotified
  · rw [hstate, s.slot_sequential]

/-! ### Those who wait -/

omit [DecidableEq κ] in
/-- Whoever does not sleep is answered at the next look when the outcome is there. -/
theorem answered_of_slot {o : PipelineOutcome} {i : ι} (hslot : w.state.slot = some o)
    (hi : w.waiters i ≠ .parked) : ((w.wait i).look i).waiters i = .answered o := by
  have hlooking : (w.wait i).waiters i = .looking ∧ (w.wait i).state = w.state := by
    unfold Assembling.wait
    cases hi' : w.waiters i with
    | parked => exact absurd hi' hi
    | looking => exact ⟨hi', rfl⟩
    | _ => simp [Assembling.move]
  simp [Assembling.look, Assembling.move, hlooking.1, hlooking.2, hslot]

/-- Whoever waits can be answered. -/
theorem reaches_answered (h : Sound s w) (i : ι) :
    Reaches s w fun w' => w'.waiters i = .answered s.outcome := by
  obtain ⟨turns, hended⟩ := h.reaches_ended
  have h₁ := h.foldl turns
  have hwaiter := h₁.waiters i
  rw [hended] at hwaiter
  have hawake : (turns.foldl (Assembling.step s) w).waiters i ≠ .parked := by
    intro hi
    rw [hi] at hwaiter
    cases hwaiter
  exact .of_foldl turns ⟨[.wait i, .waiter i], answered_of_slot (h₁.slot_of_ended hended) hawake⟩

end Sound

/-! ## Assembly with and without waiting -/

theorem exists_run_slot (s : Submission κ σ) (schedule : List (PipelineTurn κ ι)) :
    ∃ later, (run s (schedule ++ later)).state.slot = some s.outcome := by
  obtain ⟨later, hended⟩ := (sound_run s schedule).reaches_ended
  rw [← run_append] at hended
  exact ⟨later, (sound_run s (schedule ++ later)).slot_of_ended hended⟩

theorem exists_run_heard (s : Submission κ σ) (schedule : List (PipelineTurn κ ι)) (i : ι) :
    ∃ later, (run s (schedule ++ later)).waiters i = .answered s.outcome := by
  obtain ⟨later, hanswered⟩ := (sound_run s schedule).reaches_answered i
  rw [← run_append] at hanswered
  exact ⟨later, hanswered⟩

/-- There is an outcome that depends on the shaders alone: the failure of the first that failed, or
what the remapping of all of them gives. Whoever takes turns with whom and whatever the caller does
when it is told, the slot holds nothing or this outcome, and then for good. The state of the caller
is as before or as one call with the outcome leaves it, and it is the latter as soon as the outcome
is in the slot; a crash of the caller adds one warning and nothing else. Those who wait are answered
with the outcome, and never before it is in the slot. The slot can always still be written, and
whoever waits can be answered. -/
theorem assembly_agrees (a : Assembly) (ks : List κ) (jobs : κ → Job) :
    ∃ o : PipelineOutcome,
      (∀ front k back e, ks = front ++ k :: back →
        (∀ k' ∈ front, ∃ compiled, (jobs k').outcome = .ok compiled) →
        (jobs k).outcome = .error e → o = .error e) ∧
      (∀ compiled, (ks.map fun k => (jobs k).outcome) = compiled.map .ok →
        o = ((RemappedPipeline.build a.name compiled a.remapper a.device).outcome.1).mapError
          (Stop.caught a.name .assembly)) ∧
      ∀ (σ : Type) (onComplete : Callback σ) (caller : σ) (schedule : List (PipelineTurn κ ι)),
        let outcomes := ks.map fun k => (jobs k).outcome
        let s : Submission κ σ := { assembly := a, shaders := ks, jobs, onComplete, caller }
        let w := run s schedule
        let told := (onComplete o).run.run caller
        (w.state.caller = caller ∨ w.state.caller = told.2) ∧
        (w.state.slot = none ∨ w.state.slot = some o) ∧
        (w.state.slot = some o →
          w.state.caller = told.2 ∧
          (told.1 = .ok () → w.state.warnings = (a.outcome outcomes).2) ∧
          (∀ crash, told.1 = .error crash → w.state.warnings = (a.outcome outcomes).2 ++
            [(ShaderError.crashed a.name .callback crash).message]) ∧
          w.state = a.run outcomes onComplete { caller } ∧
          (∀ later, (run s (schedule ++ later)).state = w.state) ∧
          ∀ i, w.waiters i ≠ .parked →
            (run s (schedule ++ [.wait i, .waiter i])).waiters i = .answered o) ∧
        (∀ answer ∈ w.answers, answer.2 = o ∧ w.state.slot = some o) ∧
        (∃ later, (run s (schedule ++ later)).state.slot = some o) ∧
        ∀ i, ∃ later, (run s (schedule ++ later)).waiters i = .answered o := by
  refine ⟨(a.outcome (ks.map fun k => (jobs k).outcome)).1, ?_, ?_,
    fun σ onComplete caller schedule => ?_⟩
  · rintro front k back e rfl hfront hk
    refine outcome_of_error ?_
    rw [List.map_append, List.map_cons, hk]
    exact compiledAll_of_first_error (by simpa using hfront)
  · intro compiled hks
    rw [hks]
    exact outcome_of_ok (compiledAll_map_ok compiled)
  · intro outcomes s w told
    have h : Sound s w := sound_run s schedule
    have hslot_eq : w.state.slot = none ∨ w.state.slot = some s.outcome := by
      rcases h.place.slot_cases with ⟨hnone, -⟩ | ⟨hstate, -⟩
      · exact .inl hnone
      · exact .inr (hstate ▸ s.slot_sequential)
    refine ⟨h.place.caller_eq, hslot_eq, fun hslot => ?_, fun answer hanswer => ?_,
      exists_run_slot s schedule, exists_run_heard s schedule⟩
    · have hstate : w.state = s.sequential := (h.place.of_slot hslot).1
      refine ⟨hstate ▸ s.caller_sequential, hstate ▸ s.warnings_sequential.1,
        hstate ▸ s.warnings_sequential.2, hstate, state_run_append hslot, fun i hi => ?_⟩
      rw [run_append]
      exact Sound.answered_of_slot hslot hi
    · have hslot := h.answers answer hanswer
      have hsome : w.state.slot = some s.outcome :=
        hslot_eq.resolve_left fun hnone => by rw [hnone] at hslot; cases hslot
      exact ⟨Option.some.inj (hslot.symm.trans hsome), hsome⟩

-- a caller that writes down what it is told and then crashes is told the outcome, once
example (a : Assembly) (outcomes : List Outcome) (crash : Crash) :
    (a.run outcomes (fun o => do modify (· ++ [o]); throw crash) { caller := [] }).caller =
      [(a.outcome outcomes).1] :=
  rfl

end Assembling

end ShaderBind
