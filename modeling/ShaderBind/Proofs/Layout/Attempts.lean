import ShaderBind.Proofs.Layout.Lookup

/-!
# The order in which names are tried

A resource is looked up in up to four attempts (`attempts`): the shader's name as a whole and as an
element of an array, and the author's name in the same two ways. What the look-up gives is what the
first attempt gives that succeeds. An element beyond the end of its array does not end the search; but
if no attempt succeeds, the first such element is told of, and only where there is none the shader's
name (`resolveAmong_eq`, `resolve_attempts`).
-/

namespace ShaderBind

namespace Mapping

/-- One way to look for a resource. -/
inductive Attempt
  | whole (name : String)
  | element (name : String)
  deriving DecidableEq, Repr

/-- The element that a name is, and the entry of its array, if the layout has the array. Without a
suffix, or with an empty one, no name is that of an element. -/
def elementOf? (m : Mapping) (suffix : Option String) (name : String) :
    Option (ElementName × Entry) := do
  let suffix ← suffix.filter fun s => !s.isEmpty
  let n ← ElementName.parse? suffix name
  let entry ← m.get? n.base
  return (n, entry)

/-- What an attempt finds. An element is found only inside of its array. -/
def Attempt.result (m : Mapping) (suffix : Option String) : Attempt → Option Resolved
  | whole name => (m.get? name).map fun entry => ⟨name, entry, none⟩
  | element name =>
    (m.elementOf? suffix name).bind fun (n, entry) =>
      if n.index < entry.arraySize then some ⟨n.base, entry, some n.index⟩ else none

/-- The attempts for one name. -/
def attemptsFor (name : String) : List Attempt :=
  [.whole name, .element name]

/-- The attempts for a resource, in order. -/
def attempts (name : String) (altName : Option String) : List Attempt :=
  (name :: altName.toList).flatMap attemptsFor

/-- What is told of a name that is that of an element, if it is not found. -/
def overrun? (m : Mapping) (shader : String) (suffix : Option String) (name : String) :
    Option ShaderError :=
  (m.elementOf? suffix name).map fun (n, entry) =>
    .arrayIndexOutOfRange shader name n.base n.index entry.arraySize

theorem elementOf?_eq (m : Mapping) (suffix : Option String) (name : String) :
    m.elementOf? suffix name = (suffix.bind fun s => ElementName.parse? s name).bind fun n =>
      (m.get? n.base).map fun entry => (n, entry) := by
  rw [← parse?_usable, ResourceList.usable, Option.bind_assoc]
  simp only [Option.map_eq_bind]
  rfl

/-- A name is looked up in two attempts, and is out of range only if both fail. -/
theorem lookup_eq (m : Mapping) (suffix : Option String) (name : String) :
    m.lookup suffix name =
      match (attemptsFor name).findSome? (Attempt.result m suffix) with
      | some resolved => .found resolved
      | none =>
        match m.elementOf? suffix name with
        | some (n, entry) => .outOfRange name n.base n.index entry.arraySize
        | none => .missing := by
  unfold lookup
  simp only [attemptsFor, List.findSome?_cons, List.findSome?_nil, Attempt.result, elementOf?_eq]
  cases hwhole : m.get? name with
  | some entry => rfl
  | none =>
    cases hparse : suffix.bind fun s => ElementName.parse? s name with
    | none => rfl
    | some n =>
      cases hentry : m.get? n.base with
      | none => simp [hentry]
      | some entry =>
        by_cases hindex : n.index < entry.arraySize <;> simp [hentry, hindex]

/-- Names in turn are looked up in all their attempts; a failure that is known already goes before
those that come. -/
theorem resolveAmong_eq (m : Mapping) (shader name : String) (suffix : Option String)
    (candidates : List String) (failure : Option ShaderError) :
    m.resolveAmong shader name suffix candidates failure =
      match (candidates.flatMap attemptsFor).findSome? (Attempt.result m suffix) with
      | some resolved => .ok resolved
      | none =>
        .error ((failure.or (candidates.findSome? (m.overrun? shader suffix))).getD
          (.unresolvedResource shader name)) := by
  induction candidates generalizing failure with
  | nil => cases failure <;> rfl
  | cons candidate candidates ih =>
    rw [resolveAmong, lookup_eq, List.flatMap_cons, List.findSome?_append, List.findSome?_cons]
    cases (attemptsFor candidate).findSome? (Attempt.result m suffix) with
    | some resolved => rfl
    | none =>
      cases helement : m.elementOf? suffix candidate with
      | none => simp only [overrun?, helement, Option.map_none, Option.none_or, ih]
      | some found =>
        simp only [overrun?, helement, Option.map_some, Option.none_or, ih]
        cases failure <;> rfl

theorem resolve_eq (m : Mapping) (shader name : String) (altName suffix : Option String) :
    m.resolve shader name altName suffix =
      match (attempts name altName).findSome? (Attempt.result m suffix) with
      | some resolved => .ok resolved
      | none =>
        .error (((name :: altName.toList).findSome? (m.overrun? shader suffix)).getD
          (.unresolvedResource shader name)) := by
  rw [resolve, resolveAmong_eq, Option.none_or]
  rfl

/-- A resource is found exactly if one of its attempts succeeds, and then as the first of them finds
it; an index is then inside of the entry's array. If none succeeds, the failure tells of the first name
that is that of an element of an array in the layout, and if there is none of the shader's name. -/
theorem resolve_attempts (m : Mapping) (shader name : String) (altName suffix : Option String) :
    ((∃ resolved, m.resolve shader name altName suffix = .ok resolved) ↔
        ∃ a ∈ attempts name altName, (a.result m suffix).isSome = true) ∧
      (∀ resolved, m.resolve shader name altName suffix = .ok resolved ↔
        (attempts name altName).findSome? (Attempt.result m suffix) = some resolved) ∧
      (∀ e, m.resolve shader name altName suffix = .error e ↔
        (∀ a ∈ attempts name altName, a.result m suffix = none) ∧
          e = ((name :: altName.toList).findSome? (m.overrun? shader suffix)).getD
            (.unresolvedResource shader name)) ∧
      ∀ resolved, m.resolve shader name altName suffix = .ok resolved →
        ∀ index ∈ resolved.element, index < resolved.entry.arraySize := by
  refine ⟨?_, fun resolved => ?_, fun e => ?_, fun resolved => element_lt_of_resolve⟩
  · rw [resolve_eq, ← List.findSome?_isSome_iff]
    cases (attempts name altName).findSome? (Attempt.result m suffix) <;> simp
  · rw [resolve_eq]
    cases (attempts name altName).findSome? (Attempt.result m suffix) <;> simp
  · rw [resolve_eq, ← List.findSome?_eq_none_iff]
    cases (attempts name altName).findSome? (Attempt.result m suffix) with
    | some resolved => simp
    | none => simp only [true_and, Except.error.injEq, eq_comm]

/-- An element beyond the end of its array does not hide the author's name. -/
example : (resolve (ofEntries [("b", ⟨2, 0, 1, .all, {}⟩)]) "s" "b_1" (some "b") (some "_")).toOption =
    some ⟨"b", ⟨2, 0, 1, .all, {}⟩, none⟩ := by
  decide +kernel

end Mapping

end ShaderBind
