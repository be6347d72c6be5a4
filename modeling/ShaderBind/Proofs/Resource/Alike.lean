import ShaderBind.Proofs.Text.Decimal
import ShaderBind.Resource.Basic
import Mathlib.Data.List.Nodup
import Mathlib.Logic.Basic

/-!
# Resources of one kind

Two resources are compatible if they are of one category, dimension, sample type and format, and
alike if besides they are of one size. Both are equivalences, and they are what the comparison of
two resources decides, the second when sizes are compared as well
(`difference?_eq_none_iff_compatible`, `difference?_eq_none_iff`). Different values have different
names, so a difference that is found is a property with the two names of its values, and these
differ (`difference?_eq_some`).
-/

namespace ShaderBind

/-! ## Names of values -/

/-- Categories have names of their own. -/
theorem Category.name_inj {c d : Category} (h : c.name = d.name) : c = d := by
  have hmem : ∀ c : Category, c ∈ all := fun c => by cases c <;> decide
  exact List.inj_on_of_nodup_map (l := all) (by decide) (hmem c) (hmem d) h

theorem Dimension.title_inj {d e : Dimension} (h : d.title = e.title) : d = e := by
  have hmem : ∀ d : Dimension, d ∈ all := fun d => by cases d <;> decide
  exact List.inj_on_of_nodup_map (l := all) (by decide) (hmem d) (hmem e) h

theorem SampleType.name_inj {s t : SampleType} (h : s.name = t.name) : s = t := by
  have hmem : ∀ s : SampleType, s ∈ all := fun s => by cases s <;> decide
  exact List.inj_on_of_nodup_map (l := all) (by decide) (hmem s) (hmem t) h

theorem TexelFormat.name_inj {f g : TexelFormat} (h : f.name = g.name) : f = g := by
  have hmem : ∀ f : TexelFormat, f ∈ all := fun f => by cases f <;> decide
  exact List.inj_on_of_nodup_map (l := all) (by decide) (hmem f) (hmem g) h

namespace Resource

/-! ## Equivalences -/

/-- The resources are of one kind: a shader can use them through one binding. -/
structure Compatible (r s : Resource) : Prop where
  category_eq : r.category = s.category
  dimension_eq : r.dimension = s.dimension
  sampleType_eq : r.sampleType = s.sampleType
  format_eq : r.format = s.format

/-- The resources are of one kind and size. -/
structure Alike (r s : Resource) : Prop extends Compatible r s where
  arraySize_eq : r.arraySize = s.arraySize

theorem Compatible.refl (r : Resource) : r.Compatible r :=
  ⟨rfl, rfl, rfl, rfl⟩

theorem Compatible.symm {r s : Resource} (h : r.Compatible s) : s.Compatible r :=
  ⟨h.category_eq.symm, h.dimension_eq.symm, h.sampleType_eq.symm, h.format_eq.symm⟩

theorem Compatible.trans {r s t : Resource} (h : r.Compatible s) (h' : s.Compatible t) :
    r.Compatible t :=
  ⟨h.category_eq.trans h'.category_eq, h.dimension_eq.trans h'.dimension_eq,
    h.sampleType_eq.trans h'.sampleType_eq, h.format_eq.trans h'.format_eq⟩

/-- Resources are alike if they agree in all that a binding depends on. -/
theorem alike_iff {r s : Resource} :
    r.Alike s ↔ r.category = s.category ∧ r.dimension = s.dimension ∧
      r.sampleType = s.sampleType ∧ r.format = s.format ∧ r.arraySize = s.arraySize :=
  ⟨fun ⟨⟨hc, hd, hs, hf⟩, ha⟩ => ⟨hc, hd, hs, hf, ha⟩,
    fun ⟨hc, hd, hs, hf, ha⟩ => ⟨⟨hc, hd, hs, hf⟩, ha⟩⟩

theorem Alike.refl (r : Resource) : r.Alike r :=
  ⟨.refl r, rfl⟩

theorem Alike.symm {r s : Resource} (h : r.Alike s) : s.Alike r :=
  ⟨h.toCompatible.symm, h.arraySize_eq.symm⟩

theorem Alike.trans {r s t : Resource} (h : r.Alike s) (h' : s.Alike t) : r.Alike t :=
  ⟨h.toCompatible.trans h'.toCompatible, h.arraySize_eq.trans h'.arraySize_eq⟩

/-- No difference is told exactly between resources that go together. -/
theorem difference?_eq_none_iff_compatible {r s : Resource} {compareArraySize : Bool} :
    r.difference? s compareArraySize = none ↔
      r.Compatible s ∧ (compareArraySize = true → r.arraySize = s.arraySize) := by
  unfold difference?
  constructor
  · intro h
    -- the properties are compared in turn, and each has to be passed
    split at h
    · cases h
    next hcategory =>
      split at h
      · cases h
      next hdimension =>
        split at h
        · cases h
        next hsampleType =>
          split at h
          · cases h
          next hformat =>
            split at h
            · cases h
            next harraySize =>
              exact ⟨⟨not_not.1 hcategory, not_not.1 hdimension, not_not.1 hsampleType,
                not_not.1 hformat⟩, fun hsize => not_not.1 fun hne => harraySize ⟨hsize, hne⟩⟩
  · rintro ⟨h, hsize⟩
    simpa [h.category_eq, h.dimension_eq, h.sampleType_eq, h.format_eq] using hsize

/-- With sizes compared, no difference is told exactly between resources that are alike. -/
theorem difference?_eq_none_iff {r s : Resource} : r.difference? s true = none ↔ r.Alike s :=
  difference?_eq_none_iff_compatible.trans
    ⟨fun h => ⟨h.1, h.2 rfl⟩, fun h => ⟨h.toCompatible, fun _ => h.arraySize_eq⟩⟩

/-! ## Differences -/

/-- How a property of a resource is worded. -/
def value (r : Resource) : Property → String
  | .category => r.category.name
  | .dimension => r.dimension.title
  | .sampleType => r.sampleType.name
  | .format => r.format.name
  | .arraySize => toString r.arraySize

/-- A difference that is found is told by the two values, and they differ. -/
theorem difference?_eq_some {r s : Resource} {compareArraySize : Bool} {p : Property}
    {v w : String} (h : r.difference? s compareArraySize = some (p, v, w)) :
    v = r.value p ∧ w = s.value p ∧ r.value p ≠ s.value p := by
  unfold difference? at h
  split at h
  next hne =>
    cases h
    exact ⟨rfl, rfl, fun heq => hne (Category.name_inj heq)⟩
  split at h
  next hne =>
    cases h
    exact ⟨rfl, rfl, fun heq => hne (Dimension.title_inj heq)⟩
  split at h
  next hne =>
    cases h
    exact ⟨rfl, rfl, fun heq => hne (SampleType.name_inj heq)⟩
  split at h
  next hne =>
    cases h
    exact ⟨rfl, rfl, fun heq => hne (TexelFormat.name_inj heq)⟩
  split at h
  next hne =>
    cases h
    refine ⟨rfl, rfl, fun heq => hne.2 ?_⟩
    have hread := Text.readWord?_toString r.arraySize
    rw [show toString r.arraySize = toString s.arraySize from heq, Text.readWord?_toString] at hread
    exact (Option.some.inj hread).symm
  next => cases h

end Resource

end ShaderBind
