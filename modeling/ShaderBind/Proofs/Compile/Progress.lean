import ShaderBind.Proofs.Compile.Interleaving
import Mathlib.Logic.Relation

/-!
# What is still to come

From wherever a schedule leads, the task of a shader can come to its end
(`Watched.Sound.leads_ended`) and whoever waits can be told the outcome
(`Watched.Sound.leads_heard`), though nobody asks for more (`Watched.Moves`). The task waits for the
lock only, and a reader that has the lock gives it back in a step or two. One who waits sleeps only
until the task wakes it, and finds a final state when it looks again.
-/

namespace ShaderBind

/-- Whether a reader waits for the outcome, or was told it after it had waited. -/
def Reader.waiting : Reader → Bool
  | .idle => false
  | .loading q => q = .wait
  | .reading q _ => q = .wait
  | .answered q _ => q = .wait
  | _ => true

/-- Whether a reader is free to ask. -/
def Reader.resting : Reader → Bool
  | .idle => true
  | .answered _ _ => true
  | _ => false

/-- A reader that waits, or is free to ask, still does or is so. -/
def Reader.Keeps (r r' : Reader) : Prop :=
  (r.waiting = true → r'.waiting = true) ∧ (r.resting = true → r'.resting = true)

theorem Reader.Keeps.refl (r : Reader) : r.Keeps r :=
  ⟨id, id⟩

theorem Reader.keeps_woken (r : Reader) : r.Keeps r.woken := by
  cases r <;> exact ⟨id, id⟩

namespace Watched

variable {ι : Type} [DecidableEq ι]

/-! ## Moves -/

/-- A step of the task, or of a reader that does not ask for more. -/
def Move (w w' : Watched ι) : Prop :=
  w' = w.advance ∨ ∃ i, w' = w.read i

/-- Steps of the task and of readers that do not ask for more. -/
abbrev Moves : Watched ι → Watched ι → Prop :=
  Relation.ReflTransGen Move

/-- Moves go on with a schedule. -/
theorem exists_run_of_moves {j : Job} {schedule : List (Turn ι)} {w : Watched ι}
    (h : Moves (run j schedule) w) : ∃ later, w = run j (schedule ++ later) := by
  induction h with
  | refl => exact ⟨[], by rw [List.append_nil]⟩
  | tail _ hmove ih =>
    obtain ⟨later, rfl⟩ := ih
    obtain ⟨turn, rfl⟩ : ∃ turn, _ = (run j (schedule ++ later)).step turn := by
      rcases hmove with h | ⟨i, h⟩
      · exact ⟨.runner, h⟩
      · exact ⟨.reader i, h⟩
    exact ⟨later ++ [turn], by rw [← List.append_assoc, run_append j (schedule ++ later)]; rfl⟩

/-- To ask begins a query, or does nothing if the reader is busy. -/
theorem ask_eq (w : Watched ι) (i : ι) (q : Query) :
    w.ask i q = w ∨ w.ask i q = w.move i q.begin := by
  unfold ask
  split
  · exact .inr rfl
  · exact .inr rfl
  · exact .inl rfl

/-- A step of a reader leaves the task alone and moves no other reader. -/
theorem read_spec (w : Watched ι) (i : ι) :
    (w.read i).runner = w.runner ∧
      ∃ r, (w.read i).readers = Function.update w.readers i r ∧ (w.readers i).Keeps r := by
  unfold read
  cases hi : w.readers i with
  | idle => exact ⟨rfl, .idle, by simp [← hi], .refl _⟩
  | parked => exact ⟨rfl, .parked, by simp [← hi], .refl _⟩
  | answered q a => exact ⟨rfl, .answered q a, by simp [← hi], .refl _⟩
  | loading q =>
    dsimp only
    split
    · exact ⟨rfl, _, rfl, id, by simp [Reader.resting]⟩
    · exact ⟨rfl, _, rfl, id, by simp [Reader.resting]⟩
  | locking =>
    dsimp only
    split
    · exact ⟨rfl, _, rfl, id, by simp [Reader.resting]⟩
    · exact ⟨rfl, .locking, by simp [← hi], .refl _⟩
  | checking => exact ⟨rfl, _, rfl, fun _ => by split <;> rfl, by simp [Reader.resting]⟩
  | _ => exact ⟨rfl, _, rfl, id, by simp [Reader.resting]⟩

theorem readers_read_of_ne (w : Watched ι) {i k : ι} (h : k ≠ i) :
    (w.read i).readers k = w.readers k := by
  obtain ⟨-, r, hr, -⟩ := w.read_spec i
  rw [hr, Function.update_of_ne h]

/-- A step of a reader leaves all that wait waiting. -/
theorem keeps_read (w : Watched ι) (i k : ι) : (w.readers i).Keeps ((w.read k).readers i) := by
  obtain ⟨-, r, hr, hkeeps⟩ := w.read_spec k
  rw [hr]
  rcases eq_or_ne i k with rfl | hne
  · rwa [Function.update_self]
  · rw [Function.update_of_ne hne]
    exact .refl _

omit [DecidableEq ι] in
/-- A step of the task leaves all that wait waiting. -/
theorem keeps_advance (w : Watched ι) (i : ι) : (w.readers i).Keeps (w.advance.readers i) := by
  unfold advance
  cases w.runner with
  | nil => exact .refl _
  | cons step rest =>
    cases step with
    | lock => dsimp only; split <;> exact .refl _
    | notify => exact (w.readers i).keeps_woken
    | _ => exact .refl _

omit [DecidableEq ι] in
/-- The task takes its next step if it finds the lock free where it needs it. -/
theorem runner_advance {w : Watched ι} {step : ShaderStep} {rest : List ShaderStep}
    (hw : w.runner = step :: rest) (hlock : step = .lock → w.lock = none) :
    w.advance.runner = rest := by
  unfold advance
  rw [hw]
  cases step with
  | lock => simp [hlock rfl]
  | _ => rfl

theorem readers_ask_of_ne (w : Watched ι) {i k : ι} (h : i ≠ k) (q : Query) :
    (w.ask k q).readers i = w.readers i := by
  rcases w.ask_eq k q with hask | hask
  · rw [hask]
  · rw [hask]
    exact Function.update_of_ne h _ _

/-- A reader that is free to ask begins its query. -/
theorem readers_ask_of_resting {w : Watched ι} {i : ι} (h : (w.readers i).resting = true)
    (q : Query) : (w.ask i q).readers i = q.begin := by
  unfold ask
  cases hi : w.readers i with
  | idle => simp [move]
  | answered => simp [move]
  | _ => simp [hi, Reader.resting] at h

/-- Who waits goes on waiting until it is told. -/
theorem waiting_moves {w w' : Watched ι} {i : ι} (h : Moves w w')
    (hi : (w.readers i).waiting = true) : (w'.readers i).waiting = true := by
  induction h with
  | refl => exact hi
  | @tail w₁ _ _ hmove ih =>
    rcases hmove with rfl | ⟨k, rfl⟩
    · exact (w₁.keeps_advance i).1 ih
    · exact (w₁.keeps_read i k).1 ih

/-- Moves lead to a world of the given kind. -/
def Leads (w : Watched ι) (p : Watched ι → Prop) : Prop :=
  ∃ w', Moves w w' ∧ p w'

namespace Leads

variable {w w' : Watched ι} {p : Watched ι → Prop}

theorem here (h : p w) : Leads w p :=
  ⟨w, .refl, h⟩

theorem of_moves (hmoves : Moves w w') (h : Leads w' p) : Leads w p := by
  obtain ⟨w'', hmoves', hp⟩ := h
  exact ⟨w'', hmoves.trans hmoves', hp⟩

theorem advance (h : Leads w.advance p) : Leads w p :=
  h.of_moves (.single (.inl rfl))

theorem read {i : ι} (h : Leads (w.read i) p) : Leads w p :=
  h.of_moves (.single (.inr ⟨i, rfl⟩))

end Leads

namespace Sound

variable {j : Job} {w w' : Watched ι} {i : ι}

/-- Moves keep things sound. -/
theorem moves (h : Sound j w) (hmoves : Moves w w') : Sound j w' := by
  induction hmoves with
  | refl => exact h
  | tail _ hmove ih =>
    rcases hmove with rfl | ⟨i, rfl⟩
    · exact ih.advance
    · exact ih.read i

/-! ### The lock -/

/-- The lock is free, the task is where it was, and so are the readers apart from one. -/
def Freed (w : Watched ι) (i : ι) (w' : Watched ι) : Prop :=
  w'.lock = none ∧ w'.runner = w.runner ∧ ∀ k, k ≠ i → w'.readers k = w.readers k

/-- One step gives back the lock where a reader is about to. -/
theorem leads_freed_of_leaving (hi : w.readers i = .parking ∨ w.readers i = .unlocking) :
    Leads w (Freed w i) := by
  have hlock : (w.read i).lock = none := by
    rcases hi with hi | hi <;> simp [Watched.read, hi]
  exact .read (.here ⟨hlock, (w.read_spec i).1, fun k hk => w.readers_read_of_ne hk⟩)

/-- A reader that has the lock can give it back. -/
theorem leads_freed (hi : (w.readers i).holds = true) : Leads w (Freed w i) := by
  cases hi' : w.readers i with
  | parking => exact leads_freed_of_leaving (.inl hi')
  | unlocking => exact leads_freed_of_leaving (.inr hi')
  | checking =>
    have hleaving : (w.read i).readers i = .parking ∨ (w.read i).readers i = .unlocking := by
      cases hfinal : w.shader.state.isFinal <;> simp [Watched.read, Watched.move, hi', hfinal]
    obtain ⟨w', hmoves, hlock, hrunner, hothers⟩ := leads_freed_of_leaving hleaving
    exact .read ⟨w', hmoves, hlock, hrunner.trans (w.read_spec i).1,
      fun k hk => (hothers k hk).trans (w.readers_read_of_ne hk)⟩
  | _ => simp [hi', Reader.holds] at hi

/-- A reader that has the lock can give it back, and nobody else has to move. -/
theorem leads_unlocked (h : Sound j w) (hrunner : Runner.holds w.runner = false) :
    Leads w fun w' => w'.lock = none ∧ w'.runner = w.runner ∧
      ∀ k, (w.readers k).holds = false → w'.readers k = w.readers k := by
  cases hlock : w.lock with
  | none => exact .here ⟨hlock, rfl, fun _ _ => rfl⟩
  | some holder =>
    cases holder with
    | runner =>
      rw [h.runner_holds.1 hlock] at hrunner
      cases hrunner
    | reader i =>
      have hi := (h.reader_holds i).1 hlock
      obtain ⟨w', hmoves, hlock', hrunner', hothers⟩ := leads_freed hi
      refine ⟨w', hmoves, hlock', hrunner', fun k hk => hothers k ?_⟩
      rintro rfl
      rw [hk] at hi
      cases hi

/-! ### The task -/

/-- The task can come to its end. -/
theorem leads_ended (h : Sound j w) : Leads w fun w' => w'.runner = [] := by
  generalize hw : w.runner = rest
  induction rest generalizing w with
  | nil => exact .here hw
  | cons step rest ih =>
    by_cases hstep : step = .lock
    · -- whoever has the lock can give it back
      subst hstep
      have hholds : Runner.holds w.runner = false := by
        simp [hw, Runner.holds, ShaderStep.isLock]
      obtain ⟨w₁, hmoves, hlock, hrunner, -⟩ := h.leads_unlocked hholds
      have hrest := runner_advance (hrunner.trans hw) fun _ => hlock
      exact .of_moves hmoves (.advance (ih (h.moves hmoves).advance hrest))
    · have hrest := runner_advance hw fun heq => absurd heq hstep
      exact .advance (ih h.advance hrest)

/-! ### Readers that wait -/

/-- The reader is told the outcome. -/
def Heard (j : Job) (i : ι) (w : Watched ι) : Prop :=
  w.readers i = .answered .wait (.outcome j.outcome)

omit [DecidableEq ι] in
/-- One that waited is told the outcome and nothing else. -/
theorem heard_of_answered {a : Answer} (h : Sound j w) (hi : w.readers i = .answered .wait a) :
    Heard j i w := by
  have hfits := h.fits i
  rw [hi] at hfits
  cases a with
  | outcome o =>
    obtain rfl : o = j.outcome := by simpa [Reader.Fits, Query.Early, Query.Late] using hfits
    exact hi
  | _ => simp [Reader.Fits, Query.Early, Query.Late] at hfits

theorem leads_heard_of_reading (h : Sound j w) (hw : Runner.settled w.runner = true)
    {seen : ShaderState} (hi : w.readers i = .reading .wait seen) : Leads w (Heard j i) := by
  have htold := h.told_reading hi
  rw [hw] at htold
  have hanswer : Query.answer { w.shader with state := seen } .wait = .outcome j.outcome :=
    congrArg Answer.outcome htold
  refine .read (i := i) (.here ?_)
  simp [Heard, Watched.read, Watched.tell, Watched.move, hi, hanswer]

theorem leads_heard_of_loading (h : Sound j w) (hw : Runner.settled w.runner = true)
    (hi : w.readers i = .loading .wait) : Leads w (Heard j i) := by
  have hfinal : w.shader.state.isFinal = true := h.place.isFinal_eq.trans hw
  have hi' : (w.read i).readers i = .reading .wait w.shader.state := by
    simp [Watched.read, Watched.move, hi, hfinal]
  exact .read ((h.read i).leads_heard_of_reading (by rwa [(w.read_spec i).1]) hi')

theorem leads_heard_of_unlocking (h : Sound j w) (hw : Runner.settled w.runner = true)
    (hi : w.readers i = .unlocking) : Leads w (Heard j i) := by
  have hi' : (w.read i).readers i = .loading .wait := by simp [Watched.read, Watched.move, hi]
  exact .read ((h.read i).leads_heard_of_loading (by rwa [(w.read_spec i).1]) hi')

theorem leads_heard_of_checking (h : Sound j w) (hw : Runner.settled w.runner = true)
    (hi : w.readers i = .checking) : Leads w (Heard j i) := by
  have hfinal : w.shader.state.isFinal = true := h.place.isFinal_eq.trans hw
  have hi' : (w.read i).readers i = .unlocking := by simp [Watched.read, Watched.move, hi, hfinal]
  exact .read ((h.read i).leads_heard_of_unlocking (by rwa [(w.read_spec i).1]) hi')

theorem leads_heard_of_locking (h : Sound j w) (hw : w.runner = [])
    (hi : w.readers i = .locking) : Leads w (Heard j i) := by
  obtain ⟨w₁, hmoves, hlock, hrunner, hothers⟩ := h.leads_unlocked (by rw [hw]; rfl)
  have hi₁ : w₁.readers i = .locking := (hothers i (by rw [hi]; rfl)).trans hi
  have hi' : (w₁.read i).readers i = .checking := by simp [Watched.read, Watched.move, hi₁, hlock]
  have hsettled : Runner.settled (w₁.read i).runner = true := by
    rw [(w₁.read_spec i).1, hrunner, hw]
    rfl
  exact .of_moves hmoves (.read (((h.moves hmoves).read i).leads_heard_of_checking hsettled hi'))

/-- After the task has ended, whoever waits can be told the outcome, wherever it is. -/
theorem leads_heard_of_ended (h : Sound j w) (hw : w.runner = [])
    (hi : (w.readers i).waiting = true) : Leads w (Heard j i) := by
  have hfits := h.fits i
  have hsettled : Runner.settled w.runner = true := by rw [hw]; rfl
  cases hi' : w.readers i with
  | idle => simp [hi', Reader.waiting] at hi
  | loading q =>
    obtain rfl : q = .wait := by simpa [hi', Reader.waiting] using hi
    exact h.leads_heard_of_loading hsettled hi'
  | reading q seen =>
    obtain rfl : q = .wait := by simpa [hi', Reader.waiting] using hi
    exact h.leads_heard_of_reading hsettled hi'
  | locking => exact h.leads_heard_of_locking hw hi'
  | checking => exact h.leads_heard_of_checking hsettled hi'
  | unlocking => exact h.leads_heard_of_unlocking hsettled hi'
  -- nobody sleeps, or is about to, when the task has ended
  | parking => simp [hi', Reader.Fits, hsettled] at hfits
  | parked => simp [hi', Reader.Fits, hw, Runner.notified] at hfits
  | answered q a =>
    obtain rfl : q = .wait := by simpa [hi', Reader.waiting] using hi
    exact .here (h.heard_of_answered hi')

/-- Whoever waits can be told the outcome. -/
theorem leads_heard (h : Sound j w) (hi : (w.readers i).waiting = true) :
    Leads w (Heard j i) := by
  obtain ⟨w', hmoves, hended⟩ := h.leads_ended
  exact .of_moves hmoves ((h.moves hmoves).leads_heard_of_ended hended (waiting_moves hmoves hi))

end Sound

end Watched

end ShaderBind
