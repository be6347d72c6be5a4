import ShaderBind.Proofs.Compile.Watching
import Mathlib.Data.List.Induction

/-!
# What every schedule keeps

However the task of a shader and its readers take turns, the shader and its past are as the steps
that the task has left say (`Watched.At`), what is seen follows the past, at most one has the lock,
and every reader is where it may be (`Watched.Sound`, `Watched.sound_run`). Two facts carry the
rest. The
outcome is published before the final state is stored, so one who saw a final state finds it. And a
reader goes to sleep only while the final state is not stored, which takes the lock that the reader
had when it looked: so it sleeps before the task wakes the sleepers.
-/

namespace ShaderBind

/-! ## Answers -/

/-- An answer of the time before the final state. -/
def Query.Early (shader : String) : Query → Answer → Prop
  | .state, .state s => s.isFinal = false
  | .poll, .poll r => r = none
  | .compiled, .outcome r => r = .error (.notReady shader)
  | _, _ => False

/-- An answer of the time since the final state. -/
def Query.Late (o : Outcome) : Query → Answer → Prop
  | .state, .state s => s = .ofOutcome o
  | .poll, .poll r => r = some o
  | .compiled, .outcome r => r = o
  | .wait, .outcome r => r = o
  | _, _ => False

/-- An answer of the time before or since the final state. -/
def Query.Right (j : Job) (final : Bool) (q : Query) (a : Answer) : Prop :=
  if final then q.Late j.outcome a else q.Early j.info.shader a

/-- A right answer is one from before the outcome, or from after it. -/
theorem Query.Right.early_or_late {j : Job} {final : Bool} {q : Query} {a : Answer}
    (h : q.Right j final a) : q.Early j.info.shader a ∨ q.Late j.outcome a := by
  cases final with
  | true => exact .inr h
  | false => exact .inl h

/-- A shader that is not final answers nothing. -/
theorem Shader.poll?_of_not_final {s : Shader} (h : s.state.isFinal = false) : s.poll? = none := by
  rw [poll?, h]
  rfl

theorem ShaderState.isFinal_ofOutcome (o : Outcome) : (ofOutcome o).isFinal = true := by
  cases o <;> rfl

/-- One who sees the final state and the outcome answers with them. -/
theorem Query.late_answer (shader : String) (o : Outcome) (q : Query) :
    q.Late o (q.answer { name := shader, state := .ofOutcome o, outcome := some o }) := by
  have hpoll : Shader.poll? { name := shader, state := .ofOutcome o, outcome := some o } = some o :=
    if_pos (ShaderState.isFinal_ofOutcome o)
  cases q with
  | state => rfl
  | poll => exact hpoll
  | compiled => exact congrArg (Option.getD · _) hpoll
  | wait => exact congrArg (Option.getD · _) hpoll

/-- Who looks at a shader that is not final and does not wait is told so. -/
theorem Query.early_answer {s : Shader} {q : Query} (hq : q ≠ .wait)
    (hs : s.state.isFinal = false) : q.Early s.name (q.answer s) := by
  have hpoll := Shader.poll?_of_not_final hs
  cases q with
  | state => exact hs
  | poll => exact hpoll
  | compiled => exact congrArg (Option.getD · _) hpoll
  | wait => exact absurd rfl hq

/-! ## Places -/

namespace ShaderStep

/-- The step changes the state. -/
def isStore : ShaderStep → Bool
  | .store _ => true
  | _ => false

/-- The step takes the lock. -/
def isLock : ShaderStep → Bool
  | .lock => true
  | _ => false

/-- The step wakes those who wait. -/
def isNotify : ShaderStep → Bool
  | .notify => true
  | _ => false

/-- The step gives the lock back. -/
def isUnlock : ShaderStep → Bool
  | .unlock => true
  | _ => false

end ShaderStep

namespace Runner

/-- Whether a task with these steps left has the lock: it has to give it back, and does not take it
any more. -/
def holds (rest : List ShaderStep) : Bool :=
  rest.any ShaderStep.isUnlock && !rest.any ShaderStep.isLock

/-- Whether no state is stored any more. -/
def settled (rest : List ShaderStep) : Bool :=
  !rest.any ShaderStep.isStore

/-- Whether nobody is woken any more. -/
def notified (rest : List ShaderStep) : Bool :=
  !rest.any ShaderStep.isNotify

end Runner

/-- Whether a reader has the lock. -/
def Reader.holds : Reader → Bool
  | .checking => true
  | .parking => true
  | .unlocking => true
  | _ => false

/-- What a reader at its place knows of a task with these steps left, and that it was told what is
right. -/
def Reader.Fits (j : Job) (rest : List ShaderStep) : Reader → Prop
  | .loading .wait => Runner.settled rest = true
  | .reading _ seen => Runner.settled rest = true ∧ seen = .ofOutcome j.outcome
  | .unlocking => Runner.settled rest = true
  | .parking => Runner.settled rest = false
  | .parked => Runner.notified rest = false
  | .answered q a => q.Early j.info.shader a ∨ q.Late j.outcome a
  | _ => True

namespace Reader.Fits

variable {j : Job} {rest rest' : List ShaderStep} {r : Reader}

/-- A reader's place depends on two facts about the task only. -/
theorem congr (h : r.Fits j rest) (hsettled : Runner.settled rest = Runner.settled rest')
    (hnotified : Runner.notified rest = Runner.notified rest') : r.Fits j rest' := by
  cases r with
  | loading q => cases q <;> simp_all [Reader.Fits]
  | _ => simp_all [Reader.Fits]

/-- The final state is stored while no reader has the lock. -/
theorem settle (h : r.Fits j rest) (hr : r.holds = false) (hsettled : Runner.settled rest' = true)
    (hnotified : Runner.notified rest' = false) : r.Fits j rest' := by
  cases r with
  | loading q => cases q <;> simp_all [Reader.Fits]
  | parking => cases hr
  | _ => simp_all [Reader.Fits]

/-- A reader that was woken is where it may be. -/
theorem woken (h : r.Fits j rest) (hsettled : Runner.settled rest = Runner.settled rest') :
    r.woken.Fits j rest' := by
  cases r with
  | loading q => cases q <;> simp_all [Reader.Fits, Reader.woken]
  | _ => simp_all [Reader.Fits, Reader.woken]

end Reader.Fits

theorem Reader.holds_woken (r : Reader) : r.woken.holds = r.holds := by
  cases r <;> rfl

/-- The state of a shader that entered phases. -/
def ShaderState.ofPhases (entered : List Phase) : ShaderState :=
  entered.getLast?.elim .uninitialized .ofPhase

/-- The states of a shader that entered phases. -/
def ShaderState.through (entered : List Phase) : List ShaderState :=
  .uninitialized :: entered.map .ofPhase

namespace Job

/-- The steps that enter phases. -/
def entering (phases : List Phase) : List ShaderStep :=
  phases.map fun phase => .store (.ofPhase phase)

/-- The steps under the lock. -/
def settling (j : Job) : List ShaderStep :=
  [.store (.ofOutcome j.outcome), .notify, .unlock]

/-- The steps after the phases. -/
def ending (j : Job) : List ShaderStep :=
  .publish j.outcome :: .lock :: j.settling

theorem steps_eq (j : Job) : j.steps = entering j.phases ++ j.ending :=
  rfl

end Job

namespace Watched

/-- The shader and its past while the task has these steps left. -/
inductive At (j : Job) : List ShaderStep → Shader → List ShaderState → Prop
  | entering (entered left : List Phase) (h : entered ++ left = j.phases) :
    At j (Job.entering left ++ j.ending)
      { name := j.info.shader, state := .ofPhases entered, outcome := none }
      (ShaderState.through entered)
  | published {rest : List ShaderStep} (h : rest = .lock :: j.settling ∨ rest = j.settling) :
    At j rest { name := j.info.shader, state := .ofPhases j.phases, outcome := some j.outcome }
      (ShaderState.through j.phases)
  | settled {rest : List ShaderStep}
      (h : rest = [.notify, .unlock] ∨ rest = [.unlock] ∨ rest = []) :
    At j rest { name := j.info.shader, state := .ofOutcome j.outcome, outcome := some j.outcome }
      (ShaderState.through j.phases ++ [.ofOutcome j.outcome])

theorem isFinal_ofPhases (entered : List Phase) :
    (ShaderState.ofPhases entered).isFinal = false := by
  unfold ShaderState.ofPhases
  cases entered.getLast? with
  | none => rfl
  | some phase => cases phase <;> rfl

/-- The states of some phases end with the present one. -/
theorem through_eq (entered : List Phase) :
    ∃ init, ShaderState.through entered = init ++ [.ofPhases entered] := by
  induction entered using List.reverseRecOn with
  | nil => exact ⟨[], rfl⟩
  | append_singleton entered phase _ =>
    exact ⟨ShaderState.through entered, by simp [ShaderState.through, ShaderState.ofPhases]⟩

/-- Before the last phase is entered the task has not stored the final state, has not got the lock
and has woken nobody. -/
theorem entering_spec (j : Job) (left : List Phase) :
    Runner.settled (Job.entering left ++ j.ending) = false ∧
      Runner.holds (Job.entering left ++ j.ending) = false ∧
      Runner.notified (Job.entering left ++ j.ending) = false := by
  simp [Runner.settled, Runner.holds, Runner.notified, Job.ending, Job.settling, ShaderStep.isStore,
    ShaderStep.isLock, ShaderStep.isNotify]

namespace At

variable {j : Job} {rest : List ShaderStep} {s : Shader} {past : List ShaderState}

/-- A shader keeps its name. -/
theorem name_eq (h : At j rest s past) : s.name = j.info.shader := by
  cases h <;> rfl

/-- The state is final once the task has stored it, and not before. -/
theorem isFinal_eq (h : At j rest s past) : s.state.isFinal = Runner.settled rest := by
  cases h with
  | entering entered left _ => rw [(entering_spec j left).1, isFinal_ofPhases]
  | published h => rcases h with rfl | rfl <;> exact isFinal_ofPhases j.phases
  | settled h =>
    rw [ShaderState.isFinal_ofOutcome]
    rcases h with rfl | rfl | rfl <;> rfl

/-- After the final state was stored nothing changes in the shader. -/
theorem of_settled (h : At j rest s past) (hrest : Runner.settled rest = true) :
    s = { name := j.info.shader, state := .ofOutcome j.outcome, outcome := some j.outcome } ∧
      past = ShaderState.through j.phases ++ [.ofOutcome j.outcome] := by
  cases h with
  | entering entered left _ =>
    rw [(entering_spec j left).1] at hrest
    cases hrest
  | published h => rcases h with rfl | rfl <;> cases hrest
  | settled => exact ⟨rfl, rfl⟩

/-- Nobody is woken before the final state is stored. -/
theorem notified_of_not_settled (h : At j rest s past) (hrest : Runner.settled rest = false) :
    Runner.notified rest = false := by
  cases h with
  | entering entered left _ => exact (entering_spec j left).2.2
  | published h => rcases h with rfl | rfl <;> rfl
  | settled h => rcases h with rfl | rfl | rfl <;> cases hrest

/-- The last state that was stored is the present one. -/
theorem exists_past_eq (h : At j rest s past) : ∃ init, past = init ++ [s.state] := by
  cases h with
  | entering entered left _ => exact through_eq entered
  | published _ => exact through_eq j.phases
  | settled _ => exact ⟨_, rfl⟩

/-- A step brings the shader and its past to where the task then is. -/
theorem step {step : ShaderStep} (h : At j (step :: rest) s past) :
    At j rest (s.step step) (step.extend past) := by
  generalize hsteps : step :: rest = steps at h
  cases h with
  | entering entered left hphases =>
    cases left with
    | nil =>
      obtain ⟨rfl, rfl⟩ := List.cons_eq_cons.1 hsteps
      obtain rfl : entered = j.phases := by simpa using hphases
      exact .published (.inl rfl)
    | cons phase left =>
      obtain ⟨rfl, rfl⟩ := List.cons_eq_cons.1 hsteps
      have hplace := At.entering (entered ++ [phase]) left (by simpa using hphases)
      simpa [ShaderState.ofPhases, ShaderState.through, Shader.step, ShaderStep.extend,
        Job.entering] using hplace
  | published h =>
    rcases h with rfl | rfl
    · obtain ⟨rfl, rfl⟩ := List.cons_eq_cons.1 hsteps
      exact .published (.inr rfl)
    · obtain ⟨rfl, rfl⟩ := List.cons_eq_cons.1 hsteps
      exact .settled (.inl rfl)
  | settled h =>
    rcases h with rfl | rfl | rfl
    · obtain ⟨rfl, rfl⟩ := List.cons_eq_cons.1 hsteps
      exact .settled (.inr (.inl rfl))
    · obtain ⟨rfl, rfl⟩ := List.cons_eq_cons.1 hsteps
      exact .settled (.inr (.inr rfl))
    · cases hsteps

/-- A state that is stored is that of a phase, or the final one, for which the task has the lock. -/
theorem store_cases {state : ShaderState} (h : At j (.store state :: rest) s past) :
    (Runner.settled rest = false ∧ Runner.notified rest = false) ∨
      (Runner.settled rest = true ∧ Runner.notified rest = false ∧ Runner.holds rest = true) := by
  generalize hsteps : ShaderStep.store state :: rest = steps at h
  cases h with
  | entering entered left _ =>
    cases left with
    | nil => cases hsteps
    | cons phase left =>
      obtain ⟨-, rfl⟩ := List.cons_eq_cons.1 hsteps
      exact .inl ⟨(entering_spec j left).1, (entering_spec j left).2.2⟩
  | published h =>
    rcases h with rfl | rfl
    · cases hsteps
    · obtain ⟨-, rfl⟩ := List.cons_eq_cons.1 hsteps
      exact .inr ⟨rfl, rfl, rfl⟩
  | settled h => rcases h with rfl | rfl | rfl <;> cases hsteps

/-- The lock that is taken is kept until it is given back. -/
theorem holds_of_lock (h : At j (.lock :: rest) s past) : Runner.holds rest = true := by
  generalize hsteps : ShaderStep.lock :: rest = steps at h
  cases h with
  | entering entered left _ => cases left <;> cases hsteps
  | published h =>
    rcases h with rfl | rfl
    · obtain ⟨-, rfl⟩ := List.cons_eq_cons.1 hsteps
      rfl
    · cases hsteps
  | settled h => rcases h with rfl | rfl | rfl <;> cases hsteps

/-- The lock is given back last. -/
theorem eq_nil_of_unlock (h : At j (.unlock :: rest) s past) : rest = [] := by
  generalize hsteps : ShaderStep.unlock :: rest = steps at h
  cases h with
  | entering entered left _ => cases left <;> cases hsteps
  | published h => rcases h with rfl | rfl <;> cases hsteps
  | settled h =>
    rcases h with rfl | rfl | rfl
    · cases hsteps
    · exact (List.cons_eq_cons.1 hsteps).2
    · cases hsteps

end At

/-! ## What is seen -/

/-- Each state of the past is seen any number of times, one after another. -/
def Follows (past seen : List ShaderState) : Prop :=
  ∃ counts : List Nat, counts.length = past.length ∧
    seen = (List.zipWith List.replicate counts past).flatten

/-- What was seen is still in order when one more state is stored. -/
theorem Follows.store {past seen : List ShaderState} (h : Follows past seen) (s : ShaderState) :
    Follows (past ++ [s]) seen := by
  obtain ⟨counts, hlength, rfl⟩ := h
  refine ⟨counts ++ [0], by simp [hlength], ?_⟩
  rw [List.zipWith_append hlength]
  simp

/-- To see the present state keeps what was seen in order. -/
theorem Follows.load {past seen : List ShaderState} {s : ShaderState}
    (h : Follows (past ++ [s]) seen) : Follows (past ++ [s]) (seen ++ [s]) := by
  obtain ⟨counts, hlength, rfl⟩ := h
  obtain ⟨front, n, rfl⟩ : ∃ front n, counts = front ++ [n] := by
    rcases List.eq_nil_or_concat counts with rfl | ⟨front, n, rfl⟩
    · simp at hlength
    · exact ⟨front, n, by simp⟩
  have hfront : front.length = past.length := by simpa using hlength
  refine ⟨front ++ [n + 1], by simp [hfront], ?_⟩
  rw [List.zipWith_append hfront, List.zipWith_append hfront]
  simp [List.replicate_succ']

/-! ## What every schedule keeps -/

variable {ι : Type}

/-- The shader and its past are as the steps that are left say, what is seen follows the past, one
at most has the lock, and readers are where they may be. -/
structure Sound (j : Job) (w : Watched ι) : Prop where
  place : At j w.runner w.shader w.past
  seen : Follows w.past (w.seen.map Prod.snd)
  runner_holds : w.lock = some .runner ↔ Runner.holds w.runner = true
  reader_holds : ∀ i, w.lock = some (.reader i) ↔ (w.readers i).holds = true
  fits : ∀ i, (w.readers i).Fits j w.runner

namespace Sound

variable {j : Job} {w : Watched ι}

theorem start (j : Job) : Sound j (Watched.start j : Watched ι) where
  place := .entering [] j.phases rfl
  seen := ⟨[0], rfl, rfl⟩
  runner_holds := by simp [Watched.start, Job.steps_eq, (entering_spec j j.phases).2.1]
  reader_holds i := by simp [Watched.start, Reader.holds]
  fits i := by simp [Watched.start, Reader.Fits]

theorem load (h : Sound j w) (i : ι) : Sound j (w.load i) := by
  refine { h with seen := ?_ }
  obtain ⟨init, hpast⟩ := h.place.exists_past_eq
  have hseen := h.seen
  rw [hpast] at hseen
  simpa [Watched.load, hpast] using hseen.load

/-- What is told after the state was loaded and nothing more is read. -/
theorem told_loading (h : Sound j w) {i : ι} {q : Query} (hi : w.readers i = .loading q)
    (hq : q = .state ∨ w.shader.state.isFinal = false) :
    q.Right j (Runner.settled w.runner) (q.answer w.shader) := by
  have hfits := h.fits i
  rw [hi] at hfits
  rw [h.place.isFinal_eq] at hq
  cases hs : Runner.settled w.runner with
  | true =>
    obtain rfl : q = .state := by simpa [hs] using hq
    rw [(h.place.of_settled hs).1]
    rfl
  | false =>
    have hwait : q ≠ .wait := by
      rintro rfl
      rw [Reader.Fits, hs] at hfits
      cases hfits
    have hearly := Query.early_answer hwait (h.place.isFinal_eq.trans hs)
    rwa [h.place.name_eq] at hearly

/-- What is told after the outcome was read, too. -/
theorem told_reading (h : Sound j w) {i : ι} {q : Query} {seen : ShaderState}
    (hi : w.readers i = .reading q seen) :
    q.Right j (Runner.settled w.runner) (q.answer { w.shader with state := seen }) := by
  have hfits := h.fits i
  rw [hi] at hfits
  obtain ⟨hsettled, rfl⟩ : Runner.settled w.runner = true ∧ seen = .ofOutcome j.outcome := hfits
  rw [hsettled, (h.place.of_settled hsettled).1]
  exact q.late_answer _ _

variable [DecidableEq ι]

/-- A reader moves, and all others stay where they may be. -/
theorem fits_move (h : Sound j w) (i : ι) {r : Reader} (hfits : r.Fits j w.runner) :
    ∀ k, ((w.move i r).readers k).Fits j w.runner :=
  (Function.forall_update_iff w.readers fun _ r => r.Fits j w.runner).2 ⟨hfits, fun k _ => h.fits k⟩

/-- A reader moves on and leaves the lock as it is. -/
theorem move (h : Sound j w) (i : ι) {r : Reader} (hholds : r.holds = (w.readers i).holds)
    (hfits : r.Fits j w.runner) : Sound j (w.move i r) :=
  { h with
    reader_holds :=
      (Function.forall_update_iff w.readers fun k r => w.lock = some (.reader k) ↔ r.holds = true).2
        ⟨by rw [hholds]; exact h.reader_holds i, fun k _ => h.reader_holds k⟩
    fits := h.fits_move i hfits }

/-- A right answer keeps things sound. -/
theorem tell (h : Sound j w) (i : ι) {q : Query} {a : Answer} (hholds : (w.readers i).holds = false)
    (ha : q.Right j (Runner.settled w.runner) a) : Sound j (w.tell i q a) :=
  { h.move (r := .answered q a) i hholds.symm ha.early_or_late with }

/-- A reader takes the lock. -/
theorem acquire (h : Sound j w) (i : ι) {r : Reader} (hlock : w.lock = none)
    (hholds : r.holds = true) (hfits : r.Fits j w.runner) :
    Sound j { w.move i r with lock := some (.reader i) } := by
  have hrunner : Runner.holds w.runner = false := by simpa [hlock] using h.runner_holds
  have hreaders : ∀ k, (w.readers k).holds = false := fun k => by
    simpa [hlock] using h.reader_holds k
  exact { h with
    runner_holds := by simp [Watched.move, hrunner]
    reader_holds := (Function.forall_update_iff w.readers fun k r =>
        some (Holder.reader i) = some (.reader k) ↔ r.holds = true).2
      ⟨by simp [hholds], fun k hk => by simp [hreaders k, Ne.symm hk]⟩
    fits := h.fits_move i hfits }

/-- A reader gives the lock back. -/
theorem release (h : Sound j w) (i : ι) {r : Reader} (hlock : (w.readers i).holds = true)
    (hholds : r.holds = false) (hfits : r.Fits j w.runner) :
    Sound j { w.move i r with lock := none } := by
  have hholder : w.lock = some (.reader i) := (h.reader_holds i).2 hlock
  have hrunner : Runner.holds w.runner = false := by simpa [hholder] using h.runner_holds
  have hreaders : ∀ k ≠ i, (w.readers k).holds = false := fun k hk => by
    simpa [hholder, Ne.symm hk] using h.reader_holds k
  exact { h with
    runner_holds := by simp [Watched.move, hrunner]
    reader_holds := (Function.forall_update_iff w.readers fun k r =>
        none = some (Holder.reader k) ↔ r.holds = true).2
      ⟨by simp [hholds], fun k hk => by simp [hreaders k hk]⟩
    fits := h.fits_move i hfits }

/-- To ask keeps things sound. -/
theorem ask (h : Sound j w) (i : ι) (q : Query) : Sound j (w.ask i q) := by
  have hbegin : q.begin.holds = false ∧ q.begin.Fits j w.runner := by
    cases q <;> exact ⟨rfl, trivial⟩
  unfold Watched.ask
  split
  next hi => exact h.move i (by rw [hi, hbegin.1]; rfl) hbegin.2
  next hi => exact h.move i (by rw [hi, hbegin.1]; rfl) hbegin.2
  next => exact h

/-- A step of a reader keeps things sound. -/
theorem read (h : Sound j w) (i : ι) : Sound j (w.read i) := by
  have hfits := h.fits i
  have hfinal := h.place.isFinal_eq
  unfold Watched.read
  cases hi : w.readers i with
  | idle => exact h
  | parked => exact h
  | answered q a => exact h
  | loading q =>
    dsimp only
    split
    next hq =>
      have htold := h.told_loading hi (by simpa using hq)
      exact (h.load i).tell i (by rw [Watched.load, hi]; rfl) htold
    next hq =>
      have hsettled : Runner.settled w.runner = true := by simp_all
      have hseen : w.shader.state = .ofOutcome j.outcome := by rw [(h.place.of_settled hsettled).1]
      exact (h.load i).move i (by rw [Watched.load, hi]; rfl) ⟨hsettled, hseen⟩
  | reading q seen => exact h.tell i (by rw [hi]; rfl) (h.told_reading hi)
  | locking =>
    dsimp only
    split
    next hlock => exact h.acquire i (Option.isNone_iff_eq_none.1 hlock) rfl trivial
    next => exact h
  | checking =>
    refine (h.load i).move i ?_ ?_
    · rw [Watched.load, hi]
      split <;> rfl
    · split
      next hs => exact hfinal.symm.trans hs
      next hs => exact hfinal.symm.trans (Bool.eq_false_iff.2 hs)
  | parking =>
    rw [hi] at hfits
    refine h.release i (by rw [hi]; rfl) rfl ?_
    exact h.place.notified_of_not_settled hfits
  | unlocking =>
    rw [hi] at hfits
    exact h.release i (by rw [hi]; rfl) rfl hfits

omit [DecidableEq ι] in
/-- While the lock is free or the task has it, no reader has it. -/
theorem readers_free (h : Sound j w) (hlock : w.lock = none ∨ Runner.holds w.runner = true)
    (i : ι) : (w.readers i).holds = false := by
  rcases hlock with hlock | hholds
  · simpa [hlock] using h.reader_holds i
  · simpa [h.runner_holds.2 hholds] using h.reader_holds i

omit [DecidableEq ι] in
/-- A step of the task keeps things sound. -/
theorem advance (h : Sound j w) : Sound j w.advance := by
  have hplace := h.place
  have hholds := h.runner_holds
  have hfits := h.fits
  unfold Watched.advance
  cases hw : w.runner with
  | nil => exact h
  | cons step rest =>
    rw [hw] at hplace hholds hfits
    have hnext := hplace.step
    cases step with
    | store state =>
      refine { h with
        place := hnext
        seen := h.seen.store state
        runner_holds := hholds
        fits := fun i => ?_ }
      rcases hplace.store_cases with ⟨hsettled, hnotified⟩ | ⟨hsettled, hnotified, hlock⟩
      · exact (hfits i).congr hsettled.symm rfl
      · -- the task has the lock, so no reader is about to sleep
        have hreader := h.readers_free (.inr (hw ▸ hlock)) i
        exact (hfits i).settle hreader hsettled hnotified
    | publish outcome =>
      exact { h with
        place := hnext
        runner_holds := hholds
        fits := fun i => (hfits i).congr rfl rfl }
    | lock =>
      dsimp only
      split
      next hlock =>
        have hreaders := h.readers_free (.inl (Option.isNone_iff_eq_none.1 hlock))
        have hholds' := hplace.holds_of_lock
        exact { h with
          place := hnext
          runner_holds := by simp [hholds']
          reader_holds := fun i => by simp [hreaders i, Watched.apply]
          fits := fun i => (hfits i).congr rfl rfl }
      next => exact h
    | notify =>
      exact { h with
        place := hnext
        runner_holds := hholds
        reader_holds := fun i => by
          have hreader := h.reader_holds i
          rwa [← Reader.holds_woken] at hreader
        fits := fun i => (hfits i).woken rfl }
    | unlock =>
      obtain rfl := hplace.eq_nil_of_unlock
      have hreaders := h.readers_free (.inr (by rw [hw]; rfl))
      exact { h with
        place := hnext
        runner_holds := by simp [Runner.holds]
        reader_holds := fun i => by simp [hreaders i, Watched.apply]
        fits := fun i => (hfits i).congr rfl rfl }

/-- Every step keeps things sound. -/
theorem step (h : Sound j w) (turn : Turn ι) : Sound j (w.step turn) := by
  cases turn with
  | runner => exact h.advance
  | ask i q => exact h.ask i q
  | reader i => exact h.read i

end Sound

variable [DecidableEq ι]

theorem run_append (j : Job) (schedule later : List (Turn ι)) :
    run j (schedule ++ later) = later.foldl step (run j schedule) := by
  rw [run, List.foldl_append]
  rfl

/-- Every schedule leads to a sound world. -/
theorem sound_run (j : Job) (schedule : List (Turn ι)) : Sound j (run j schedule) := by
  induction schedule using List.reverseRecOn with
  | nil => exact .start j
  | append_singleton schedule turn ih =>
    rw [run_append]
    exact ih.step turn

end Watched

end ShaderBind
