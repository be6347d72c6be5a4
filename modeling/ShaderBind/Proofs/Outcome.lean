import ShaderBind.Noted
import Mathlib.Data.List.Forall2

/-!
# How computations end

Inversion of computations that may stop: if a sequence of steps has a result, so has each step
(`bind_eq_ok_iff`), and if it stops, one of the steps does (`bind_eq_error_iff`). Steps with a state
are run one by one from the state that the last one left (`run_bind_of_ok`, `run_bind_of_error`).
For steps that note warnings, `Noted.Returns` says that a step can end with a result, whatever was
noted before it, `Noted.Yields` that it always does and notes nothing, and `Noted.Ends` that it
always ends in one way, whatever it notes.
-/

namespace ShaderBind

variable {ε σ α β : Type}

/-- A sequence succeeds if and only if both parts do, the second on what the first gives. -/
theorem bind_eq_ok_iff {x : Except ε α} {f : α → Except ε β} {b : β} :
    (x >>= f) = .ok b ↔ ∃ a, x = .ok a ∧ f a = .ok b := by
  cases x with
  | error e => exact ⟨fun h => (by cases h), fun ⟨_, h, _⟩ => (by cases h)⟩
  | ok a => exact ⟨fun h => ⟨a, rfl, h⟩, fun ⟨_, h, hf⟩ => (by cases h; exact hf)⟩

/-- A sequence fails with the failure of its first part, or with that of the second. -/
theorem bind_eq_error_iff {x : Except ε α} {f : α → Except ε β} {e : ε} :
    (x >>= f) = .error e ↔ x = .error e ∨ ∃ a, x = .ok a ∧ f a = .error e := by
  cases x with
  | error e' =>
    exact ⟨fun h => (by cases h; exact .inl rfl), fun
      | .inl h => (by cases h; rfl)
      | .inr ⟨_, h, _⟩ => (by cases h)⟩
  | ok a =>
    exact ⟨fun h => .inr ⟨a, rfl, h⟩, fun
      | .inl h => (by cases h)
      | .inr ⟨_, h, hf⟩ => (by cases h; exact hf)⟩

/-- What is computed from a result adds no failure. -/
theorem bind_pure_eq_error_iff {x : Except ε α} {f : α → β} {e : ε} :
    (x >>= fun a => pure (f a)) = .error e ↔ x = .error e := by
  rw [bind_eq_error_iff]
  refine ⟨fun h => h.resolve_right ?_, .inl⟩
  rintro ⟨_, _, ⟨⟩⟩

theorem pure_eq_ok_iff {a b : α} : (pure a : Except ε α) = .ok b ↔ a = b :=
  ⟨Except.ok.inj, congrArg _⟩

/-- A mapped result comes from a result. -/
theorem map_eq_ok_iff {x : Except ε α} {f : α → β} {b : β} :
    x.map f = .ok b ↔ ∃ a, x = .ok a ∧ f a = b := by
  cases x <;> simp [Except.map]

/-- Mapping a result leaves failures alone. -/
theorem map_eq_error_iff {x : Except ε α} {f : α → β} {e : ε} :
    x.map f = .error e ↔ x = .error e := by
  cases x <;> simp [Except.map]

theorem map_map_except {γ : Type} (x : Except ε α) (f : α → β) (g : β → γ) :
    (x.map f).map g = x.map (g ∘ f) := by
  cases x <;> rfl

/-- A part of the result that is known shows that there is a result. -/
theorem exists_ok_of_map_toOption {x : Except ε α} {f : α → β} {b : β}
    (h : x.toOption.map f = some b) : ∃ a, x = .ok a ∧ f a = b := by
  cases x with
  | error e => cases h
  | ok a => exact ⟨a, rfl, Option.some.inj h⟩

theorem Stop.ofError_eq_ok_iff {x : Except ShaderError α} {a : α} :
    Stop.ofError x = .ok a ↔ x = .ok a := by
  cases x <;> simp [Stop.ofError]

/-- An error stops as a failure, never as a crash. -/
theorem Stop.ofError_eq_error_iff {x : Except ShaderError α} {s : Stop} :
    Stop.ofError x = .error s ↔ ∃ e, x = .error e ∧ s = .failed e := by
  cases x <;> simp [Stop.ofError, eq_comm]

theorem Stop.ofCrash_eq_ok_iff {x : Except Crash α} {a : α} :
    Stop.ofCrash x = .ok a ↔ x = .ok a := by
  cases x <;> simp [Stop.ofCrash]

/-- A crash is no failure. -/
theorem Stop.ofCrash_ne_failed {x : Except Crash α} {e : ShaderError} :
    Stop.ofCrash x ≠ .error (.failed e) := by
  cases x <;> simp [Stop.ofCrash]

section

variable {x : ExceptT ε (StateM σ) α} {f : α → ExceptT ε (StateM σ) β} {s t : σ}

/-- A sequence goes on from the state that its first part leaves. -/
theorem run_bind_of_ok {a : α} (h : x.run.run s = (.ok a, t)) :
    (x >>= f).run.run s = (f a).run.run t := by
  simp only [ExceptT.run_bind, StateT.run_bind, h]
  rfl

/-- A sequence ends where its first part fails, in the state that it leaves. -/
theorem run_bind_of_error {e : ε} (h : x.run.run s = (.error e, t)) :
    (x >>= f).run.run s = (.error e, t) := by
  simp only [ExceptT.run_bind, StateT.run_bind, h]
  rfl

end

namespace Noted

/-- The computation can end with `a`. -/
def Returns (x : Noted α) (a : α) : Prop :=
  ∃ before after, x.run.run before = (.ok a, after)

/-- What comes out in the end is returned from somewhere. -/
theorem returns_of_outcome {x : Noted α} {a : α} (h : x.outcome.1 = .ok a) : x.Returns a :=
  ⟨[], x.outcome.2, Prod.ext h rfl⟩

/-- A sequence returns what its second part returns on some result of the first. -/
theorem Returns.bind_inv {x : Noted α} {f : α → Noted β} {b : β} (h : (x >>= f).Returns b) :
    ∃ a, x.Returns a ∧ (f a).Returns b := by
  obtain ⟨before, after, h⟩ := h
  rcases hx : x.run.run before with ⟨e | a, between⟩
  · cases (run_bind_of_error hx).symm.trans h
  · exact ⟨a, ⟨before, between, hx⟩, between, after, (run_bind_of_ok hx).symm.trans h⟩

theorem returns_ofStop_iff {x : Except Stop α} {a : α} : (ofStop x).Returns a ↔ x = .ok a :=
  ⟨fun ⟨_, _, h⟩ => congrArg Prod.fst h, fun h => ⟨[], [], Prod.ext h rfl⟩⟩

theorem returns_ofError_iff {x : Except ShaderError α} {a : α} :
    (ofError x).Returns a ↔ x = .ok a :=
  returns_ofStop_iff.trans Stop.ofError_eq_ok_iff

theorem returns_pure_iff {a b : α} : (pure a : Noted α).Returns b ↔ a = b :=
  ⟨fun ⟨_, _, h⟩ => Except.ok.inj (congrArg Prod.fst h), fun h => ⟨[], [], h ▸ rfl⟩⟩

/-- Where a traversal returns, every item gave its own result. -/
theorem returns_mapM {f : α → Noted β} {as : List α} {bs : List β}
    (h : (as.mapM f).Returns bs) : List.Forall₂ (fun a b => (f a).Returns b) as bs := by
  induction as generalizing bs with
  | nil =>
    rw [List.mapM_nil] at h
    cases returns_pure_iff.1 h
    exact .nil
  | cons a as ih =>
    rw [List.mapM_cons] at h
    obtain ⟨b, hb, h⟩ := h.bind_inv
    obtain ⟨rest, hrest, h⟩ := h.bind_inv
    cases returns_pure_iff.1 h
    exact .cons hb (ih hrest)

theorem not_returns_fail {e : ShaderError} {a : α} : ¬ (fail e : Noted α).Returns a :=
  fun ⟨_, _, h⟩ => nomatch congrArg Prod.fst h

/-- The computation can stop with `e`. -/
def Stops (x : Noted α) (e : Stop) : Prop :=
  ∃ before after, x.run.run before = (.error e, after)

theorem stops_of_outcome {x : Noted α} {e : Stop} (h : x.outcome.1 = .error e) : x.Stops e :=
  ⟨[], x.outcome.2, Prod.ext h rfl⟩

/-- A sequence stops in its first part, or in the second on some result of the first. -/
theorem Stops.bind_inv {x : Noted α} {f : α → Noted β} {e : Stop} (h : (x >>= f).Stops e) :
    x.Stops e ∨ ∃ a, x.Returns a ∧ (f a).Stops e := by
  obtain ⟨before, after, h⟩ := h
  rcases hx : x.run.run before with ⟨e' | a, between⟩
  · cases (run_bind_of_error hx).symm.trans h
    exact .inl ⟨before, _, hx⟩
  · exact .inr ⟨a, ⟨before, between, hx⟩, between, after, (run_bind_of_ok hx).symm.trans h⟩

theorem not_stops_pure {a : α} {e : Stop} : ¬ (pure a : Noted α).Stops e :=
  fun ⟨_, _, h⟩ => by cases congrArg Prod.fst h

theorem stops_fail_iff {e : ShaderError} {s : Stop} :
    (fail e : Noted α).Stops s ↔ s = .failed e :=
  ⟨fun ⟨_, _, h⟩ => (Except.error.inj (congrArg Prod.fst h)).symm, fun h => ⟨[], [], h ▸ rfl⟩⟩

theorem stops_ofStop_iff {x : Except Stop α} {s : Stop} : (ofStop x).Stops s ↔ x = .error s :=
  ⟨fun ⟨_, _, h⟩ => congrArg Prod.fst h, fun h => ⟨[], [], Prod.ext h rfl⟩⟩

/-- An error that is taken over stops as a failure. -/
theorem stops_ofError_iff {x : Except ShaderError α} {s : Stop} :
    (ofError x).Stops s ↔ ∃ e, x = .error e ∧ s = .failed e :=
  stops_ofStop_iff.trans Stop.ofError_eq_error_iff

/-- What stops a row of steps stops one of them. -/
theorem stops_mapM {f : α → Noted β} {as : List α} {e : Stop} (h : (as.mapM f).Stops e) :
    ∃ a ∈ as, (f a).Stops e := by
  induction as with
  | nil =>
    rw [List.mapM_nil] at h
    exact absurd h not_stops_pure
  | cons a as ih =>
    rw [List.mapM_cons] at h
    rcases h.bind_inv with h | ⟨_, -, h⟩
    · exact ⟨a, List.mem_cons_self, h⟩
    · rcases h.bind_inv with h | ⟨_, -, h⟩
      · obtain ⟨a', ha', h⟩ := ih h
        exact ⟨a', List.mem_cons_of_mem _ ha', h⟩
      · exact absurd h not_stops_pure

/-- The computation ends with `a`, whatever was noted before, and notes nothing. -/
def Yields (x : Noted α) (a : α) : Prop :=
  ∀ noted, x.run.run noted = (.ok a, noted)

/-- What is yielded is returned. -/
theorem Yields.returns {x : Noted α} {a : α} (h : x.Yields a) : x.Returns a :=
  ⟨[], [], h []⟩

/-- What is yielded comes out without a warning. -/
theorem Yields.outcome_eq {x : Noted α} {a : α} (h : x.Yields a) : x.outcome = (.ok a, []) :=
  h []

/-- Two parts that note nothing make a sequence that notes nothing. -/
theorem Yields.bind {x : Noted α} {f : α → Noted β} {a : α} {b : β} (hx : x.Yields a)
    (hf : (f a).Yields b) : (x >>= f).Yields b :=
  fun noted => (run_bind_of_ok (hx noted)).trans (hf noted)

theorem yields_pure (a : α) : (pure a : Noted α).Yields a :=
  fun _ => rfl

theorem yields_ofStop {x : Except Stop α} {a : α} (h : x = .ok a) : (ofStop x).Yields a :=
  fun _ => by rw [h]; rfl

theorem yields_ofError {x : Except ShaderError α} {a : α} (h : x = .ok a) : (ofError x).Yields a :=
  yields_ofStop (Stop.ofError_eq_ok_iff.2 h)

/-- Steps that each yield something, in turn. -/
theorem exists_yields_mapM {f : α → Noted β} {as : List α} (h : ∀ a ∈ as, ∃ b, (f a).Yields b) :
    ∃ bs, (as.mapM f).Yields bs := by
  induction as with
  | nil =>
    rw [List.mapM_nil]
    exact ⟨[], yields_pure []⟩
  | cons a as ih =>
    obtain ⟨⟨b, hb⟩, has⟩ := List.forall_mem_cons.1 h
    obtain ⟨bs, hbs⟩ := ih has
    rw [List.mapM_cons]
    exact ⟨b :: bs, hb.bind (hbs.bind (yields_pure (b :: bs)))⟩

/-- The computation ends in one way, whatever was noted before and whatever it notes. -/
def Ends (x : Noted α) (r : Except Stop α) : Prop :=
  ∀ before, ∃ after, x.run.run before = (r, after)

/-- A computation that ends in one way has that outcome, whatever was noted before. -/
theorem Ends.outcome_eq {x : Noted α} {r : Except Stop α} (h : x.Ends r) : x.outcome.1 = r :=
  let ⟨_, h⟩ := h []
  congrArg Prod.fst h

/-- A computation that ends in one way stops with nothing else. -/
theorem Ends.eq_of_stops {x : Noted α} {r : Except Stop α} (h : x.Ends r) {s : Stop}
    (hs : x.Stops s) : r = .error s := by
  obtain ⟨before, _, hs⟩ := hs
  obtain ⟨_, h⟩ := h before
  exact congrArg Prod.fst (h.symm.trans hs)

/-- A sequence ends as its second part does, if the first one succeeds. -/
theorem Ends.bind {x : Noted α} {f : α → Noted β} {a : α} {r : Except Stop β} (hx : x.Ends (.ok a))
    (hf : (f a).Ends r) : (x >>= f).Ends r := by
  intro before
  obtain ⟨between, hx⟩ := hx before
  obtain ⟨after, hf⟩ := hf between
  exact ⟨after, (run_bind_of_ok hx).trans hf⟩

/-- A sequence whose first part always stops ends with that. -/
theorem Ends.bind_error {x : Noted α} {f : α → Noted β} {s : Stop} (hx : x.Ends (.error s)) :
    (x >>= f).Ends (.error s) := by
  intro before
  obtain ⟨between, hx⟩ := hx before
  exact ⟨between, run_bind_of_error hx⟩

theorem ends_pure (a : α) : (pure a : Noted α).Ends (.ok a) :=
  fun before => ⟨before, rfl⟩

theorem ends_fail (e : ShaderError) : (fail e : Noted α).Ends (.error (.failed e)) :=
  fun before => ⟨before, rfl⟩

theorem ends_warn (text : String) : (warn text).Ends (.ok ()) :=
  fun before => ⟨before ++ [text], rfl⟩

theorem ends_ofStop (r : Except Stop α) : (ofStop r).Ends r :=
  fun before => ⟨before, rfl⟩

end Noted

end ShaderBind
