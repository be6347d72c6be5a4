import ShaderBind.Proofs.Compile.Progress
import ShaderBind.Proofs.Compile.Steps

/-!
# The life of a shader

A shader goes forward: from where it begins it may enter the first phase and then the second, and it
ends in one of the two final states. Which way it goes is settled by its compile
(`Job.course`), and no schedule of its readers changes it. Before the final state readers are told
that there is no outcome yet, and since then all are told the same one (`Watched.Told`).
`Watched.lifecycle_safe` puts this together.
-/

namespace ShaderBind

/-! ## Courses -/

/-- Phases are entered in order, each once at most. -/
theorem Compile.Course.phases_sublist {phases : List Phase} {r : Except Stop Compiled}
    (h : Course phases r) : phases.Sublist [.generating, .reflecting] := by
  cases h <;> decide

/-- A compile that succeeds reflects if and only if it lists resources. -/
theorem Compile.Course.reflecting_mem_iff {phases : List Phase} {compiled : Compiled}
    (h : Course phases (.ok compiled)) : .reflecting ∈ phases ↔ compiled.resources ≠ none := by
  cases h with
  | generated _ h => simp [h]
  | reflected _ h => simpa [Option.isSome_iff_ne_none] using h

theorem Job.course (j : Job) : Compile.Course j.phases j.compiled.1 := by
  obtain ⟨phases, ⟨events, hevents, hphases⟩, hcourse⟩ :=
    Compile.course_compile j.context j.info j.before
  have hdrop : j.compiled.2.events.drop j.before.events.length = events := by
    rw [Job.compiled, hevents, List.drop_left]
  rw [Job.phases, hdrop, hphases]
  exact hcourse

theorem ShaderState.through_sublist {entered : List Phase}
    (h : entered.Sublist [.generating, .reflecting]) :
    (through entered).Sublist [.uninitialized, .generating, .reflecting] :=
  (h.map ShaderState.ofPhase).cons_cons _

theorem ShaderState.reflecting_mem_through {entered : List Phase} :
    .reflecting ∈ through entered ↔ .reflecting ∈ entered := by
  have hphase : ∀ phase, ofPhase phase = .reflecting ↔ phase = .reflecting := by
    intro phase
    cases phase <;> simp [ofPhase]
  simp [through, hphase]

namespace Watched

namespace At

variable {j : Job} {rest : List ShaderStep} {s : Shader} {past : List ShaderState}

/-- States are stored in order, each once at most. -/
theorem past_sublist (h : At j rest s past) :
    past.Sublist [.uninitialized, .generating, .reflecting, .ofOutcome j.outcome] := by
  have hphases := j.course.phases_sublist
  have hfront : ∀ {entered : List Phase}, entered.Sublist [.generating, .reflecting] →
      (ShaderState.through entered).Sublist
        ([.uninitialized, .generating, .reflecting] ++ [.ofOutcome j.outcome]) :=
    fun h => (ShaderState.through_sublist h).trans (List.sublist_append_left _ _)
  cases h with
  | entering entered left h =>
    have hentered : entered.Sublist j.phases := h ▸ List.sublist_append_left entered left
    exact hfront (hentered.trans hphases)
  | published _ => exact hfront hphases
  | settled _ => exact (ShaderState.through_sublist hphases).append_right _

end At

/-! ## The steps that were taken -/

variable {ι : Type}

/-- The task stays where it is, or takes its next step, and then the shader does. -/
theorem advance_spec (w : Watched ι) : w.advance = w ∨ ∃ step rest, w.runner = step :: rest ∧
    w.advance.runner = rest ∧ w.advance.shader = w.shader.step step ∧
      w.advance.past = step.extend w.past ∧ w.advance.answers = w.answers := by
  unfold advance
  cases w.runner with
  | nil => exact .inl rfl
  | cons step rest =>
    cases step with
    | lock =>
      dsimp only
      split
      · exact .inr ⟨_, _, rfl, rfl, rfl, rfl, rfl⟩
      · exact .inl rfl
    | _ => exact .inr ⟨_, _, rfl, rfl, rfl, rfl, rfl⟩

/-- The task has taken a part of the steps of the run, and has the others left: the shader and its
past are what the steps that were taken make of them. -/
def Taken (j : Job) (w : Watched ι) : Prop :=
  ∃ done, j.steps = done ++ w.runner ∧ w.shader = done.foldl Shader.step (.pending j.info) ∧
    w.past = done.foldl ShaderStep.extend [.uninitialized]

namespace Taken

variable {j : Job} {w w' : Watched ι}

theorem start (j : Job) : Taken j (Watched.start j : Watched ι) :=
  ⟨[], rfl, rfl, rfl⟩

theorem congr (h : Taken j w) (hrunner : w'.runner = w.runner) (hshader : w'.shader = w.shader)
    (hpast : w'.past = w.past) : Taken j w' := by
  rw [Taken, hrunner, hshader, hpast]
  exact h

/-- A step of the task takes the next of the shader's own steps. -/
theorem advance (h : Taken j w) : Taken j w.advance := by
  obtain ⟨done, hsteps, hshader, hpast⟩ := h
  rcases w.advance_spec with hw | ⟨step, rest, hw, hrunner, hshader', hpast', -⟩
  · rw [hw]
    exact ⟨done, hsteps, hshader, hpast⟩
  · refine ⟨done ++ [step], ?_, ?_, ?_⟩
    · rw [hrunner, hsteps, hw, List.append_assoc, List.singleton_append]
    · rw [hshader', hshader, List.foldl_concat]
    · rw [hpast', hpast, List.foldl_concat]

theorem read [DecidableEq ι] (h : Taken j w) (i : ι) : Taken j (w.read i) := by
  unfold Watched.read
  cases w.readers i with
  | loading q => dsimp only; split <;> exact h.congr rfl rfl rfl
  | locking => dsimp only; split <;> exact h.congr rfl rfl rfl
  | _ => exact h.congr rfl rfl rfl

theorem step [DecidableEq ι] (h : Taken j w) (turn : Turn ι) : Taken j (w.step turn) := by
  cases turn with
  | runner => exact h.advance
  | ask i q => rcases w.ask_eq i q with hask | hask <;> rw [Watched.step, hask] <;> exact h
  | reader i => exact h.read i

end Taken

/-- Whatever the schedule, the shader is where its own steps have brought it. -/
theorem taken_run [DecidableEq ι] (j : Job) (schedule : List (Turn ι)) :
    Taken j (run j schedule) := by
  induction schedule using List.reverseRecOn with
  | nil => exact .start j
  | append_singleton schedule turn ih =>
    rw [run_append]
    exact ih.step turn

/-! ## What is told -/

/-- What is told on the way to a later world: since the final state the outcome, and before it that
there is none yet. -/
structure Told (j : Job) (w w' : Watched ι) : Prop where
  settled : Runner.settled w.runner = true → Runner.settled w'.runner = true
  answers : ∃ told, w'.answers = w.answers ++ told ∧
    (Runner.settled w.runner = true → ∀ a ∈ told, a.2.1.Late j.outcome a.2.2) ∧
    (Runner.settled w'.runner = false → ∀ a ∈ told, a.2.1.Early j.info.shader a.2.2)

namespace Told

variable {j : Job} {w w' w'' : Watched ι}

/-- Where nobody was answered nothing has to be shown. -/
theorem of_answers_eq (hsettled : Runner.settled w.runner = true → Runner.settled w'.runner = true)
    (h : w'.answers = w.answers) : Told j w w' :=
  ⟨hsettled, [], by rw [h, List.append_nil], by simp, by simp⟩

/-- What was told in two stretches was told in both together. -/
theorem trans (h : Told j w w') (h' : Told j w' w'') : Told j w w'' := by
  obtain ⟨hsettled, told, heq, hlate, hearly⟩ := h
  obtain ⟨hsettled', told', heq', hlate', hearly'⟩ := h'
  refine ⟨hsettled' ∘ hsettled, told ++ told', by rw [heq', heq, List.append_assoc],
    fun hw => List.forall_mem_append.2 ⟨hlate hw, hlate' (hsettled hw)⟩, fun hw'' => ?_⟩
  have hw' : Runner.settled w'.runner = false := by
    rw [Bool.eq_false_iff] at hw'' ⊢
    exact mt hsettled' hw''
  exact List.forall_mem_append.2 ⟨hearly hw', hearly' hw''⟩

/-- A right answer is an early one or a late one. -/
theorem tell [DecidableEq ι] (i : ι) {q : Query} {a : Answer}
    (ha : q.Right j (Runner.settled w.runner) a) : Told j w (w.tell i q a) := by
  refine ⟨id, [(i, q, a)], rfl, fun hw => ?_, fun hw => ?_⟩
  · rw [hw] at ha
    exact List.forall_mem_singleton.2 ha
  · have hw : Runner.settled w.runner = false := hw
    rw [hw] at ha
    exact List.forall_mem_singleton.2 ha

theorem advance (j : Job) (w : Watched ι) : Told j w w.advance := by
  rcases w.advance_spec with hw | ⟨step, rest, hw, hadvance, -, -, hanswers⟩
  · rw [hw]
    exact .of_answers_eq id rfl
  · refine .of_answers_eq (fun hsettled => ?_) hanswers
    rw [hadvance]
    rw [hw] at hsettled
    simp_all [Runner.settled]

end Told

variable [DecidableEq ι]

namespace Sound

variable {j : Job} {w : Watched ι}

theorem told_read (h : Sound j w) (i : ι) : Told j w (w.read i) := by
  unfold Watched.read
  cases hi : w.readers i with
  | loading q =>
    dsimp only
    split
    next hq =>
      have hload : Told j w (w.load i) := .of_answers_eq id rfl
      exact hload.trans (.tell i (h.told_loading hi (by simpa using hq)))
    next => exact .of_answers_eq id rfl
  | reading q seen => exact .tell i (h.told_reading hi)
  | locking =>
    dsimp only
    split
    · exact .of_answers_eq id rfl
    · exact .of_answers_eq id rfl
  | _ => exact .of_answers_eq id rfl

/-- Every step tells what is right at its time. -/
theorem told_step (h : Sound j w) (turn : Turn ι) : Told j w (w.step turn) := by
  cases turn with
  | runner => exact .advance j w
  | ask i q =>
    rcases w.ask_eq i q with hask | hask
    · rw [Watched.step, hask]; exact .of_answers_eq id rfl
    · rw [Watched.step, hask]; exact .of_answers_eq id rfl
  | reader i => exact h.told_read i

end Sound

/-- What is told from some time on is right from that time on. -/
theorem told_run (j : Job) (schedule later : List (Turn ι)) :
    Told j (run j schedule) (run j (schedule ++ later)) := by
  induction later using List.reverseRecOn with
  | nil => rw [List.append_nil]; exact .of_answers_eq id rfl
  | append_singleton later turn ih =>
    rw [← List.append_assoc, run_append j (schedule ++ later)]
    exact ih.trans ((sound_run j (schedule ++ later)).told_step turn)

/-! ## The life of a shader -/

namespace Sound

variable {j : Job} {w : Watched ι}

omit [DecidableEq ι]

theorem settled_of_isFinal (h : Sound j w) (hfinal : w.shader.state.isFinal = true) :
    Runner.settled w.runner = true :=
  h.place.isFinal_eq.symm.trans hfinal

/-- The present state is the last that was stored. -/
theorem getLast?_past (h : Sound j w) : w.past.getLast? = some w.shader.state := by
  obtain ⟨init, hpast⟩ := h.place.exists_past_eq
  rw [hpast, List.getLast?_concat]

/-- Polling gives the outcome in a final state, and nothing before. -/
theorem poll?_eq (h : Sound j w) :
    w.shader.poll? = if w.shader.state.isFinal then some j.outcome else none := by
  unfold Shader.poll?
  split
  next hfinal => rw [(h.place.of_settled (h.settled_of_isFinal hfinal)).1]
  next => rfl

/-- Reading gives the outcome in a final state, and before it that the shader is not ready. -/
theorem compiled_eq (h : Sound j w) :
    w.shader.compiled =
      if w.shader.state.isFinal then j.outcome else .error (.notReady j.info.shader) := by
  rw [Shader.compiled, h.poll?_eq, h.place.name_eq]
  split <;> rfl

/-- A final state is ready or failed as the compile went. -/
theorem outcome_of_isFinal (h : Sound j w) (hfinal : w.shader.state.isFinal = true) :
    w.shader.outcome = some j.outcome ∧
      (w.shader.state = .ready ↔
        ∃ compiled, j.compiled.1 = .ok compiled ∧ j.outcome = .ok compiled) ∧
      (w.shader.state = .failed ↔ ∃ stop, j.compiled.1 = .error stop ∧
        j.outcome = .error (stop.caught j.info.shader .compilation)) := by
  rw [(h.place.of_settled (h.settled_of_isFinal hfinal)).1, Job.outcome]
  cases j.compiled.1 <;> simp [Shader.outcomeOf, ShaderState.ofOutcome]

/-- A shader that is ready went without reflection if and only if it lists no resources. -/
theorem reflecting_notMem_past_iff (h : Sound j w) {compiled : Compiled}
    (hready : w.shader.state = .ready) (houtcome : w.shader.outcome = some (.ok compiled)) :
    .reflecting ∉ w.past ↔ compiled.resources = none := by
  have hsettled := h.settled_of_isFinal (by rw [hready]; rfl)
  obtain ⟨hshader, hpast⟩ := h.place.of_settled hsettled
  have hcompiled : j.compiled.1 = .ok compiled := by
    have hj : j.outcome = .ok compiled := by simpa [hshader] using houtcome
    unfold Job.outcome at hj
    cases hr : j.compiled.1 with
    | ok c => simpa [hr, Shader.outcomeOf] using hj
    | error stop => simp [hr, Shader.outcomeOf] at hj
  have hcourse := j.course
  rw [hcompiled] at hcourse
  have hlast : ShaderState.ofOutcome j.outcome ≠ .reflecting := by
    cases j.outcome <;> simp [ShaderState.ofOutcome]
  rw [hpast, List.mem_append, ShaderState.reflecting_mem_through, hcourse.reflecting_mem_iff]
  simp [hlast.symm]

end Sound

section Runs

variable (j : Job) (schedule : List (Turn ι))

/-- Before the final state nobody was told the outcome. -/
theorem early_of_run (hfinal : (run j schedule).shader.state.isFinal = false) :
    ∀ a ∈ (run j schedule).answers, a.2.1.Early j.info.shader a.2.2 := by
  obtain ⟨-, told, htold, -, hearly⟩ := told_run j [] schedule
  have hanswers : (run j schedule).answers = told := htold
  rw [hanswers]
  exact hearly ((sound_run j schedule).place.isFinal_eq.symm.trans hfinal)

/-- From a final state on the shader stays, and everybody is told the outcome. -/
theorem late_of_run (hfinal : (run j schedule).shader.state.isFinal = true)
    (later : List (Turn ι)) :
    (run j (schedule ++ later)).shader = (run j schedule).shader ∧
      ∃ told, (run j (schedule ++ later)).answers = (run j schedule).answers ++ told ∧
        ∀ a ∈ told, a.2.1.Late j.outcome a.2.2 := by
  have h := sound_run j schedule
  have h' := sound_run j (schedule ++ later)
  have hsettled := h.settled_of_isFinal hfinal
  obtain ⟨hlater, told, htold, hlate, -⟩ := told_run j schedule later
  refine ⟨?_, told, htold, hlate hsettled⟩
  rw [(h.place.of_settled hsettled).1, (h'.place.of_settled (hlater hsettled)).1]

/-- A compile that others watch can end as one that nobody watches. -/
theorem exists_run_ended : ∃ later, (run j (schedule ++ later)).shader =
    (Shader.run (.pending j.info) j.context j.info j.before).1 := by
  obtain ⟨w', hmoves, hended⟩ := (sound_run j schedule).leads_ended
  obtain ⟨later, rfl⟩ := exists_run_of_moves hmoves
  obtain ⟨done, hsteps, hshader, -⟩ := taken_run j (schedule ++ later)
  rw [hended, List.append_nil] at hsteps
  refine ⟨later, ?_⟩
  rw [hshader, ← hsteps]
  rfl

/-- Whoever waits can be told the outcome. -/
theorem exists_run_answered {i : ι} (hi : ((run j schedule).readers i).waiting = true) :
    ∃ later, (run j (schedule ++ later)).readers i = .answered .wait (.outcome j.outcome) := by
  obtain ⟨w', hmoves, hheard⟩ := (sound_run j schedule).leads_heard hi
  obtain ⟨later, rfl⟩ := exists_run_of_moves hmoves
  exact ⟨later, hheard⟩

end Runs

/-- In every world that a schedule leads to, the task has taken a part of the steps of the run. The
states of the shader and those that were seen go forward. A final state comes with the outcome, and
says whether it is a result or a failure. Before it whoever polls finds nothing and all readers are
told that there is none yet; since then all find and are told the outcome. A shader that is ready
went through the second phase if its result has a list of resources, and only then. The shader can
always come to the end that it has when nobody looks, and who waits can be told. -/
theorem lifecycle_safe (j : Job) (schedule : List (Turn ι)) :
    let w := run j schedule
    Taken j w ∧
    (w.past.Sublist [.uninitialized, .generating, .reflecting, .ofOutcome j.outcome] ∧
      w.past.getLast? = some w.shader.state ∧ Follows w.past (w.seen.map Prod.snd)) ∧
    (w.shader.state.isFinal = true → w.shader.outcome = some j.outcome ∧
      (w.shader.state = .ready ↔
        ∃ compiled, j.compiled.1 = .ok compiled ∧ j.outcome = .ok compiled) ∧
      (w.shader.state = .failed ↔ ∃ stop, j.compiled.1 = .error stop ∧
        j.outcome = .error (stop.caught j.info.shader .compilation))) ∧
    (w.shader.poll? = if w.shader.state.isFinal then some j.outcome else none) ∧
    (w.shader.compiled =
      if w.shader.state.isFinal then j.outcome else .error (.notReady j.info.shader)) ∧
    (w.shader.state.isFinal = false → ∀ a ∈ w.answers, a.2.1.Early j.info.shader a.2.2) ∧
    (w.shader.state.isFinal = true → ∀ later, (run j (schedule ++ later)).shader = w.shader ∧
      ∃ told, (run j (schedule ++ later)).answers = w.answers ++ told ∧
        ∀ a ∈ told, a.2.1.Late j.outcome a.2.2) ∧
    (∀ compiled, w.shader.state = .ready → w.shader.outcome = some (.ok compiled) →
      (.reflecting ∉ w.past ↔ compiled.resources = none)) ∧
    (∃ later, (run j (schedule ++ later)).shader =
      (Shader.run (.pending j.info) j.context j.info j.before).1) ∧
    ∀ i, (w.readers i).waiting = true → ∃ later,
      (run j (schedule ++ later)).readers i = .answered .wait (.outcome j.outcome) := by
  have h := sound_run j schedule
  exact ⟨taken_run j schedule, ⟨h.place.past_sublist, h.getLast?_past, h.seen⟩,
    h.outcome_of_isFinal, h.poll?_eq, h.compiled_eq, early_of_run j schedule,
    late_of_run j schedule, fun _ => h.reflecting_notMem_past_iff, exists_run_ended j schedule,
    fun _ => exists_run_answered j schedule⟩

end Watched

end ShaderBind
