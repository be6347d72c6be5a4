import ShaderBind.Source.Cache
import Mathlib.Data.List.Induction
import Mathlib.Logic.Function.Basic

/-!
# Callers of one cache

What a store and a call do to the values of a cache (`get?_store`, `get?_getOrConvert`), and what
callers see that come between the steps of each other. A schedule says who takes the next step; any
number of callers take part, each with a conversion of its own (`Callers.run`). A call that is not
interrupted is `getOrConvert` (`Callers.foldl_step_alone`).

Whatever the schedule, a path holds what the first store for it brought, a caller that succeeds
returns that value, and a caller that fails returns the failure of its own conversion
(`Callers.Sound`, kept by every step). A caller whose conversion fails leaves no trace: without its
steps all others fare the same (`Callers.Alike`). `Callers.calls_agree` puts these together.
-/

namespace ShaderBind.Source.Cache

variable {α ε : Type}

/-- A store fills its own path if nothing is there, and changes no other. -/
theorem get?_store (c : Cache α) (path : String) (value : α) (q : String) :
    (c.store path value).get? q = (c.get? q).or (if path = q then some value else none) := by
  unfold Cache.store
  split
  next old hold =>
    split
    next heq =>
      subst heq
      rw [hold, Option.some_or]
    next => rw [Option.or_none]
  next =>
    simp only [Cache.get?, List.find?_append, List.find?_singleton, Option.map_or,
      decide_eq_true_eq]
    split <;> rfl

theorem settle_eq (c : Cache α) (path : String) (value : α) :
    c.settle path value = (c.get? path).getD value := by
  rw [settle, get?_store, if_pos rfl]
  cases c.get? path <;> rfl

/-- A caller gets the value that is there, or what its conversion gives. -/
theorem getOrConvert_fst (c : Cache α) (path : String) (convert : Except ε α) :
    (c.getOrConvert path convert).1 =
      match c.get? path with
      | some value => .ok value
      | none => convert := by
  unfold Cache.getOrConvert
  cases hget : c.get? path with
  | some value => rfl
  | none =>
    cases convert with
    | ok value => simp [settle_eq, hget]
    | error e => rfl

/-- After a call its path holds a value unless the conversion failed. -/
theorem get?_getOrConvert (c : Cache α) (path : String) (convert : Except ε α) (q : String) :
    (c.getOrConvert path convert).2.get? q =
      (c.get? q).or (if path = q then convert.toOption else none) := by
  unfold Cache.getOrConvert
  cases hget : c.get? path with
  | some value =>
    by_cases heq : path = q
    · subst heq
      simp only [hget, Option.some_or]
    · simp only [if_neg heq, Option.or_none]
  | none =>
    cases convert with
    | ok value => exact get?_store c path value q
    | error e => simp only [Except.toOption, ite_self, Option.or_none]

/-! ## A step of a caller -/

namespace Call

variable {r : Request ε α} {c : Cache α} {call : Call ε α} {path : String} {value : α} {e : ε}

/-- A step changes a path only by storing a value there. -/
theorem get?_step (r : Request ε α) (c : Cache α) (call : Call ε α) (path : String) :
    (call.step r c).2.get? path =
      match call with
      | .converted value => (c.get? path).or (if r.path = path then some value else none)
      | _ => c.get? path := by
  unfold step
  cases call with
  | begun => cases c.get? r.path <;> rfl
  | missed => cases r.convert <;> rfl
  | converted value => exact get?_store c r.path value path
  | returned result => rfl

/-- Only a caller that has a value to store changes the cache. -/
theorem step_snd_eq (h : ∀ value, call ≠ .converted value) : (call.step r c).2 = c := by
  unfold step
  cases call with
  | begun => cases c.get? r.path <;> rfl
  | missed => cases r.convert <;> rfl
  | converted value => exact absurd rfl (h value)
  | returned result => rfl

/-- No step changes a value that is there. -/
theorem get?_step_of_some (h : c.get? path = some value) :
    (call.step r c).2.get? path = some value := by
  rw [get?_step]
  split
  · rw [h, Option.some_or]
  · exact h

/-- What a caller has to store is what its conversion gave. -/
theorem convert_of_step_converted (h : (call.step r c).1 = .converted value) :
    r.convert = .ok value := by
  unfold step at h
  cases call with
  | begun => cases hget : c.get? r.path <;> simp [hget] at h
  | missed => cases hconvert : r.convert <;> simp_all
  | converted value => simp at h
  | returned result => simp at h

/-- A caller that succeeds by a step returns what the cache then holds. -/
theorem get?_of_step_ok (h : (call.step r c).1 = .returned (.ok value)) :
    call = .returned (.ok value) ∨ (call.step r c).2.get? r.path = some value := by
  unfold step at h ⊢
  cases call with
  | begun => cases hget : c.get? r.path <;> simp_all
  | missed => cases hconvert : r.convert <;> simp [hconvert] at h
  | converted v =>
    right
    simp only [settle_eq, returned.injEq, Except.ok.injEq] at h
    cases hget : c.get? r.path <;> simp_all [get?_store]
  | returned result => exact .inl h

/-- A caller that fails by a step returns the failure of its own conversion. -/
theorem convert_of_step_error (h : (call.step r c).1 = .returned (.error e)) :
    call = .returned (.error e) ∨ r.convert = .error e := by
  unfold step at h
  cases call with
  | begun => cases hget : c.get? r.path <;> simp [hget] at h
  | missed => cases hconvert : r.convert <;> simp_all
  | converted v => simp at h
  | returned result => exact .inl h

end Call

end Cache

/-! ## Schedules -/

/-- A cache and its callers; the stores they made, in order, each with the value it brought. -/
structure Callers (ι ε α : Type) where
  cache : Cache α := .empty
  calls : ι → Cache.Call ε α := fun _ => .begun
  stores : List (ι × α) := []

namespace Callers

variable {ι ε α : Type} [DecidableEq ι]

/-- The store that a caller makes by its next step. -/
def storeOf (i : ι) : Cache.Call ε α → List (ι × α)
  | .converted value => [(i, value)]
  | _ => []

/-- A caller takes its next step. -/
def step (requests : ι → Cache.Request ε α) (w : Callers ι ε α) (i : ι) : Callers ι ε α :=
  let next := (w.calls i).step (requests i) w.cache
  { cache := next.2
    calls := Function.update w.calls i next.1
    stores := w.stores ++ storeOf i (w.calls i) }

/-- What callers of an empty cache have done when they took steps in the given order. -/
def run (requests : ι → Cache.Request ε α) (schedule : List ι) : Callers ι ε α :=
  schedule.foldl (step requests) {}

variable {requests : ι → Cache.Request ε α} {w : Callers ι ε α}

theorem run_append (schedule later : List ι) :
    run requests (schedule ++ later) = later.foldl (step requests) (run requests schedule) := by
  rw [run, List.foldl_append]
  rfl

theorem calls_step_of_ne {i j : ι} (h : j ≠ i) : (step requests w i).calls j = w.calls j :=
  Function.update_of_ne h _ _

theorem calls_step_self (i : ι) :
    (step requests w i).calls i = ((w.calls i).step (requests i) w.cache).1 :=
  Function.update_self _ _ _

/-- A call that no other comes between. -/
theorem foldl_step_alone {i : ι} (h : w.calls i = .begun) :
    ([i, i, i].foldl (step requests) w).calls i =
        .returned (w.cache.getOrConvert (requests i).path (requests i).convert).1 ∧
      ([i, i, i].foldl (step requests) w).cache =
        (w.cache.getOrConvert (requests i).path (requests i).convert).2 := by
  cases hget : w.cache.get? (requests i).path <;> cases hconvert : (requests i).convert <;>
    simp [step, Cache.Call.step, Cache.getOrConvert, h, hget, hconvert]

/-! ## What every schedule keeps -/

/-- The first store for a path. -/
def firstStore? (requests : ι → Cache.Request ε α) (w : Callers ι ε α) (path : String) :
    Option (ι × α) :=
  w.stores.find? fun s => (requests s.1).path = path

/-- A step adds a first store only for a path that has none. -/
theorem firstStore?_step (i : ι) (path : String) :
    (step requests w i).firstStore? requests path =
      (w.firstStore? requests path).or
        ((storeOf i (w.calls i)).find? fun s => (requests s.1).path = path) :=
  List.find?_append

/-- The cache holds what was stored first, and callers return what it holds or what went wrong with
their own conversion. -/
structure Sound (requests : ι → Cache.Request ε α) (w : Callers ι ε α) : Prop where
  get?_eq : ∀ path, w.cache.get? path = (w.firstStore? requests path).map Prod.snd
  stored : ∀ s ∈ w.stores, (requests s.1).convert = .ok s.2
  converted : ∀ i value, w.calls i = .converted value → (requests i).convert = .ok value
  returned_ok : ∀ i value, w.calls i = .returned (.ok value) →
    w.cache.get? (requests i).path = some value
  returned_error : ∀ i e, w.calls i = .returned (.error e) → (requests i).convert = .error e

/-- A step of a caller keeps things sound. -/
theorem Sound.step (h : Sound requests w) (i : ι) : Sound requests (step requests w i) where
  get?_eq path := by
    rw [firstStore?_step, Option.map_or, ← h.get?_eq]
    refine (Cache.Call.get?_step (requests i) w.cache (w.calls i) path).trans ?_
    cases w.calls i with
    | converted value =>
      simp only [storeOf, List.find?_singleton]
      split <;> simp_all
    | _ => simp [storeOf]
  stored s hs := by
    rcases List.mem_append.1 hs with hs | hs
    · exact h.stored s hs
    · cases hcall : w.calls i with
      | converted value =>
        obtain rfl : s = (i, value) := by simpa [hcall, storeOf] using hs
        exact h.converted i value hcall
      | _ => simp [hcall, storeOf] at hs
  converted j value hj := by
    by_cases hji : j = i
    · subst hji
      rw [calls_step_self] at hj
      exact Cache.Call.convert_of_step_converted hj
    · rw [calls_step_of_ne hji] at hj
      exact h.converted j value hj
  returned_ok j value hj := by
    by_cases hji : j = i
    · subst hji
      rw [calls_step_self] at hj
      rcases Cache.Call.get?_of_step_ok hj with hj | hj
      · exact Cache.Call.get?_step_of_some (h.returned_ok j value hj)
      · exact hj
    · rw [calls_step_of_ne hji] at hj
      exact Cache.Call.get?_step_of_some (h.returned_ok j value hj)
  returned_error j e hj := by
    by_cases hji : j = i
    · subst hji
      rw [calls_step_self] at hj
      rcases Cache.Call.convert_of_step_error hj with hj | hj
      · exact h.returned_error j e hj
      · exact hj
    · rw [calls_step_of_ne hji] at hj
      exact h.returned_error j e hj

/-- Every schedule leads to a sound cache. -/
theorem sound_run (requests : ι → Cache.Request ε α) (schedule : List ι) :
    Sound requests (run requests schedule) := by
  induction schedule using List.reverseRecOn with
  | nil => exact ⟨fun _ => rfl, by simp [run], by simp [run], by simp [run], by simp [run]⟩
  | append_singleton schedule i ih =>
    rw [run_append]
    exact ih.step i

/-- What is stored stays. -/
theorem get?_run_append {schedule : List ι} {path : String} {value : α}
    (h : (run requests schedule).cache.get? path = some value) (later : List ι) :
    (run requests (schedule ++ later)).cache.get? path = some value := by
  induction later using List.reverseRecOn with
  | nil => rwa [List.append_nil]
  | append_singleton later i ih =>
    rw [← List.append_assoc, run_append]
    exact Cache.Call.get?_step_of_some ih

/-! ## Conversions that fail -/

/-- The same cache, and the same callers but for one. -/
structure Alike (i : ι) (w w' : Callers ι ε α) : Prop where
  cache_eq : w.cache = w'.cache
  stores_eq : w.stores = w'.stores
  calls_eq : ∀ j ≠ i, w.calls j = w'.calls j

/-- A step of the one that is left out changes nothing for the others. -/
theorem Alike.step_right {i : ι} {w' : Callers ι ε α} (h : Alike i w w')
    (hcall : ∀ value, w'.calls i ≠ .converted value) : Alike i w (step requests w' i) where
  cache_eq := h.cache_eq.trans (Cache.Call.step_snd_eq hcall).symm
  stores_eq := by
    have hstore : storeOf i (w'.calls i) = [] := by
      cases hi : w'.calls i with
      | converted value => exact absurd hi (hcall value)
      | _ => rfl
    rw [step, hstore, List.append_nil]
    exact h.stores_eq
  calls_eq j hj := by rw [calls_step_of_ne hj, h.calls_eq j hj]

/-- A step of another one is the same in both. -/
theorem Alike.step_both {i j : ι} {w' : Callers ι ε α} (h : Alike i w w') (hji : j ≠ i) :
    Alike i (step requests w j) (step requests w' j) where
  cache_eq := by rw [step, step, h.calls_eq j hji, h.cache_eq]
  stores_eq := by rw [step, step, h.calls_eq j hji, h.stores_eq]
  calls_eq k hk := by
    by_cases hkj : k = j
    · subst hkj
      rw [calls_step_self, calls_step_self, h.calls_eq k hji, h.cache_eq]
    · rw [calls_step_of_ne hkj, calls_step_of_ne hkj, h.calls_eq k hk]

/-- A caller whose conversion fails can be left out of a schedule. -/
theorem alike_run_filter {i : ι} {e : ε} (h : (requests i).convert = .error e)
    (schedule : List ι) :
    Alike i (run requests (schedule.filter (· ≠ i))) (run requests schedule) := by
  induction schedule using List.reverseRecOn with
  | nil => exact ⟨rfl, rfl, fun _ _ => rfl⟩
  | append_singleton schedule j ih =>
    rw [List.filter_append, run_append, run_append]
    by_cases hji : j = i
    · subst hji
      have hcall : ∀ value, (run requests schedule).calls j ≠ .converted value := by
        intro value hj
        have hok := (sound_run requests schedule).converted j value hj
        rw [h] at hok
        cases hok
      simpa using ih.step_right hcall
    · simpa [hji] using ih.step_both hji

/-- Callers that share a cache. Those that succeed on a path return the value of the first store for
it, and so the same one; what is stored stays; a path holds a value exactly if a store for it was
made; a caller that fails returns the failure of its own conversion, and callers whose conversion
fails change nothing for the others. Steps that no other caller comes between are one call of
`getOrConvert`, wherever the others are. -/
theorem calls_agree (requests : ι → Cache.Request ε α) (schedule : List ι) :
    (∀ i value, (run requests schedule).calls i = .returned (.ok value) →
        ∃ j, (run requests schedule).firstStore? requests (requests i).path = some (j, value) ∧
          (requests j).convert = .ok value) ∧
      (∀ i j value value' later, (requests i).path = (requests j).path →
        (run requests schedule).calls i = .returned (.ok value) →
        (run requests (schedule ++ later)).calls j = .returned (.ok value') → value = value') ∧
      (∀ path value later, (run requests schedule).cache.get? path = some value →
        (run requests (schedule ++ later)).cache.get? path = some value) ∧
      (∀ path, ((run requests schedule).cache.get? path).isSome ↔
        ∃ s ∈ (run requests schedule).stores, (requests s.1).path = path) ∧
      (∀ i e, (run requests schedule).calls i = .returned (.error e) →
        (requests i).convert = .error e) ∧
      (∀ i e, (requests i).convert = .error e →
        Alike i (run requests (schedule.filter (· ≠ i))) (run requests schedule)) ∧
      ∀ i, (run requests schedule).calls i = .begun →
        let alone := (run requests schedule).cache.getOrConvert (requests i).path
          (requests i).convert
        (run requests (schedule ++ [i, i, i])).calls i = .returned alone.1 ∧
          (run requests (schedule ++ [i, i, i])).cache = alone.2 := by
  have hsound := sound_run requests schedule
  refine ⟨fun i value hi => ?_, fun i j value value' later hpath hi hj => ?_,
    fun path value later h => get?_run_append h later, fun path => ?_, hsound.returned_error,
    fun i e h => alike_run_filter h schedule, fun i hi => ?_⟩
  · have hget := hsound.returned_ok i value hi
    rw [hsound.get?_eq, Option.map_eq_some_iff] at hget
    obtain ⟨⟨j, _⟩, hfirst, rfl⟩ := hget
    exact ⟨j, hfirst, hsound.stored _ (List.mem_of_find?_eq_some hfirst)⟩
  · have hvalue := get?_run_append (hsound.returned_ok i value hi) later
    have hvalue' := (sound_run requests (schedule ++ later)).returned_ok j value' hj
    rw [hpath, hvalue'] at hvalue
    exact (Option.some.inj hvalue).symm
  · rw [hsound.get?_eq, Option.isSome_map, firstStore?, List.find?_isSome]
    simp
  · rw [run_append]
    exact foldl_step_alone hi

/-- Three callers of one path: two conversions that disagree and one that fails. -/
def racing : Fin 3 → Cache.Request String String
  | 0 => ⟨"a", .ok "x"⟩
  | 1 => ⟨"a", .ok "y"⟩
  | 2 => ⟨"a", .error "z"⟩

/-- All three miss, the second stores first, and the first returns its value. -/
theorem calls_agree_racing :
    (run racing [0, 1, 2, 0, 1, 2, 1, 0]).calls 0 = .returned (.ok "y") ∧
      (run racing [0, 1, 2, 0, 1, 2, 1, 0]).calls 2 = .returned (.error "z") ∧
      ∃ j, (run racing [0, 1, 2, 0, 1, 2, 1, 0]).firstStore? racing "a" = some (j, "y") ∧
        (racing j).convert = .ok "y" :=
  ⟨rfl, rfl, (calls_agree racing _).1 0 "y" rfl⟩

end Callers

end ShaderBind.Source
