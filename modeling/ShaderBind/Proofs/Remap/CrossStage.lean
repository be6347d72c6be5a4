import ShaderBind.Proofs.Outcome
import ShaderBind.Proofs.Resource.Alike
import ShaderBind.Remap.CrossStage
import Mathlib.Data.List.Pairwise

/-!
# What agreement between stages means

A stage is compared only with the first stage that has a name, but being alike is an equivalence,
so stages pass the check exactly if every two of them agree: the first resource of a name in the one
is alike the first of that name in the other (`check_eq_ok_iff`). Nothing is said of the later
resources of a name in a stage, nor of resources with different names.

A refusal is true of two stages: what is known of a name was said by the first resource of that name
in a stage before (`Origin`), so the two values that are reported stand there
(`exists_clash_of_check`). Both directions together are `check_pairwise`.
-/

namespace ShaderBind

namespace CrossStage

/-! ## The resource that speaks for a name -/

/-- Of each name the first resource counts. -/
theorem mem_firstOfEach_iff {rs : List Resource} {r : Resource} :
    r ∈ firstOfEach rs ↔ rs.find? (fun s => s.semanticName = r.semanticName) = some r := by
  induction rs with
  | nil => simp [firstOfEach]
  | cons a rs ih =>
    rw [firstOfEach, List.mem_cons, List.mem_filter, ih, List.find?_cons]
    by_cases hname : a.semanticName = r.semanticName
    · simp [hname, eq_comm]
    · have hne : r ≠ a := fun h => hname (h ▸ rfl)
      simp [hname, hne, Ne.symm hname]

/-- One resource speaks for a name. -/
theorem eq_of_mem_firstOfEach {rs : List Resource} {r s : Resource} (hr : r ∈ firstOfEach rs)
    (hs : s ∈ firstOfEach rs) (hname : r.semanticName = s.semanticName) : r = s := by
  rw [mem_firstOfEach_iff] at hr hs
  rw [hname] at hr
  exact Option.some.inj (hr.symm.trans hs)

/-- The resources that speak for a name in two stages are alike. -/
def Agree (l l' : ResourceList) : Prop :=
  ∀ r ∈ firstOfEach l.resources, ∀ r' ∈ firstOfEach l'.resources,
    r.semanticName = r'.semanticName → r.Alike r'

theorem Agree.refl (l : ResourceList) : Agree l l := by
  intro r hr r' hr' hname
  rw [eq_of_mem_firstOfEach hr hr' hname]
  exact .refl r'

instance : Std.Symm Agree where
  symm _ _ h r' hr' r hr hname := (h r hr r' hr' hname.symm).symm

/-! ## One stage after another -/

/-- The resource that a name is compared with. -/
def seen (known : List SharedName) (name : String) : Option Resource :=
  (known.find? fun k => k.name = name).map SharedName.resource

/-- The names that a stage adds to the known ones. -/
def newNames (stage : Stage) (known : List SharedName) (rs : List Resource) : List SharedName :=
  (rs.filter fun r => (seen known r.semanticName).isNone).map fun r => ⟨r.semanticName, stage, r⟩

/-- Resources pass if they are like those known by their names. -/
theorem compareAll_eq_ok_iff {pipeline : String} {stage : Stage} {known new : List SharedName}
    {rs : List Resource} :
    compareAll pipeline stage known rs = .ok new ↔
      (∀ r ∈ rs, ∀ s, seen known r.semanticName = some s → s.Alike r) ∧
        new = newNames stage known rs := by
  induction rs generalizing new with
  | nil => simp [compareAll, newNames, eq_comm]
  | cons r rs ih =>
    rw [compareAll, List.forall_mem_cons]
    cases hfind : known.find? fun k => k.name = r.semanticName with
    | some k =>
      have hseen : seen known r.semanticName = some k.resource := by rw [seen, hfind]; rfl
      have hnew : newNames stage known (r :: rs) = newNames stage known rs := by
        simp [newNames, hseen]
      rw [hseen, hnew]
      dsimp only
      cases hdifference : k.resource.difference? r true with
      | some d =>
        constructor
        · intro h
          cases h
        · rintro ⟨⟨hr, -⟩, -⟩
          rw [Resource.difference?_eq_none_iff.2 (hr _ rfl)] at hdifference
          cases hdifference
      | none =>
        have hr : k.resource.Alike r := Resource.difference?_eq_none_iff.1 hdifference
        refine ih.trans (and_congr_left fun _ => ⟨fun hrs => ⟨?_, hrs⟩, And.right⟩)
        rintro s hs
        exact Option.some.inj hs ▸ hr
    | none =>
      have hseen : seen known r.semanticName = none := by rw [seen, hfind]; rfl
      have hnew : newNames stage known (r :: rs) =
          ⟨r.semanticName, stage, r⟩ :: newNames stage known rs := by
        simp [newNames, hseen]
      rw [hseen, hnew]
      simp only [bind_eq_ok_iff, pure_eq_ok_iff, ih]
      constructor
      · rintro ⟨_, ⟨hrs, rfl⟩, rfl⟩
        exact ⟨⟨fun s hs => (by cases hs), hrs⟩, rfl⟩
      · rintro ⟨⟨-, hrs⟩, rfl⟩
        exact ⟨_, ⟨hrs, rfl⟩, rfl⟩

theorem seen_append (known new : List SharedName) (name : String) :
    seen (known ++ new) name = (seen known name).or (seen new name) := by
  rw [seen, List.find?_append, Option.map_or]
  rfl

/-- A new name is that of a resource. -/
theorem mem_of_seen_newNames {stage : Stage} {known : List SharedName} {rs : List Resource}
    {name : String} {s : Resource} (h : seen (newNames stage known rs) name = some s) :
    s ∈ rs ∧ s.semanticName = name := by
  obtain ⟨k, hfind, rfl⟩ := Option.map_eq_some_iff.1 h
  obtain ⟨r, hr, rfl⟩ := List.mem_map.1 (List.mem_of_find?_eq_some hfind)
  exact ⟨List.mem_of_mem_filter hr, by simpa using List.find?_some hfind⟩

/-- The first resource of a new name is the one known by it. -/
theorem seen_newNames {stage : Stage} {known : List SharedName} {rs : List Resource} {r : Resource}
    (hr : r ∈ firstOfEach rs) (hnew : seen known r.semanticName = none) :
    seen (newNames stage known (firstOfEach rs)) r.semanticName = some r := by
  cases h : seen (newNames stage known (firstOfEach rs)) r.semanticName with
  | some s =>
    obtain ⟨hs, hname⟩ := mem_of_seen_newNames h
    rw [eq_of_mem_firstOfEach hr hs hname.symm]
  | none =>
    have hmem : (⟨r.semanticName, stage, r⟩ : SharedName) ∈
        newNames stage known (firstOfEach rs) :=
      List.mem_map.2 ⟨r, List.mem_filter.2 ⟨hr, by simp [hnew]⟩, rfl⟩
    have := List.find?_eq_none.1 (Option.map_eq_none_iff.1 h) _ hmem
    simp at this

/-- The run: stages pass exactly if they agree with each other and with what is known. -/
theorem checkFrom_eq_ok_iff {pipeline : String} {known : List SharedName}
    {ls : List ResourceList} :
    checkFrom pipeline known ls = .ok () ↔
      (∀ l ∈ ls, ∀ r ∈ firstOfEach l.resources, ∀ s,
        seen known r.semanticName = some s → s.Alike r) ∧ ls.Pairwise Agree := by
  induction ls generalizing known with
  | nil => simp [checkFrom]
  | cons l ls ih =>
    simp only [checkFrom, bind_eq_ok_iff, compareAll_eq_ok_iff, ih, List.forall_mem_cons,
      List.pairwise_cons]
    constructor
    · rintro ⟨_, ⟨hl, rfl⟩, hls, hpairwise⟩
      refine ⟨⟨hl, fun l' hl' r' hr' s hs => hls l' hl' r' hr' s ?_⟩, fun l' hl' => ?_, hpairwise⟩
      · rw [seen_append, hs, Option.some_or]
      -- a name that both stages have was known before, or is known from the first of them
      · intro r hr r' hr' hname
        have hr'' := hls l' hl' r' hr'
        rw [← hname, seen_append] at hr''
        cases hseen : seen known r.semanticName with
        | some s => exact (hl r hr s hseen).symm.trans (hr'' s (by rw [hseen, Option.some_or]))
        | none => exact hr'' r (by rw [hseen, seen_newNames hr hseen, Option.none_or])
    · rintro ⟨⟨hl, hls⟩, hagree, hpairwise⟩
      refine ⟨_, ⟨hl, rfl⟩, fun l' hl' r' hr' s hs => ?_, hpairwise⟩
      rw [seen_append, Option.or_eq_some_iff] at hs
      rcases hs with hs | ⟨-, hs⟩
      · exact hls l' hl' r' hr' s hs
      · obtain ⟨hmem, hname⟩ := mem_of_seen_newNames hs
        exact hagree l' hl' s hmem r' hr' hname

/-- A pipeline passes if any two of its stages agree. -/
theorem check_eq_ok_iff {pipeline : String} {ls : List ResourceList} :
    check pipeline ls = .ok () ↔ ls.Pairwise Agree :=
  checkFrom_eq_ok_iff.trans (and_iff_right fun _ _ _ _ _ h => (by cases h))

/-- Any two stages that passed the check agree. -/
theorem agree_of_check {pipeline : String} {ls : List ResourceList}
    (h : check pipeline ls = .ok ()) {l l' : ResourceList} (hl : l ∈ ls) (hl' : l' ∈ ls) :
    Agree l l' :=
  List.Pairwise.forall_of_forall (fun l _ => Agree.refl l) (check_eq_ok_iff.1 h) hl hl'

/-! ## What a refusal says -/

end CrossStage

/-- The resource that speaks for a name. -/
def ResourceList.first? (l : ResourceList) (name : String) : Option Resource :=
  l.resources.find? fun r => r.semanticName = name

namespace CrossStage

theorem first?_eq_some_iff {l : ResourceList} {name : String} {r : Resource} :
    l.first? name = some r ↔ r ∈ firstOfEach l.resources ∧ r.semanticName = name := by
  rw [mem_firstOfEach_iff]
  constructor
  · intro h
    have hname : r.semanticName = name := by simpa using List.find?_some h
    subst hname
    exact ⟨h, rfl⟩
  · rintro ⟨h, rfl⟩
    exact h

/-- Stages agree if the resources of each shared name are alike. -/
theorem agree_iff {l l' : ResourceList} :
    Agree l l' ↔ ∀ name r r', l.first? name = some r → l'.first? name = some r' → r.Alike r' := by
  simp only [first?_eq_some_iff]
  constructor
  · rintro h _ r r' ⟨hr, rfl⟩ ⟨hr', hname⟩
    exact h r hr r' hr' hname.symm
  · intro h r hr r' hr' hname
    exact h _ r r' ⟨hr, rfl⟩ ⟨hr', hname.symm⟩

/-- The stage of a known name, and the resource that speaks for the name there. -/
def Origin (before : List ResourceList) (k : SharedName) : Prop :=
  ∃ l ∈ before, k.stage = l.stage ∧ l.first? k.name = some k.resource

/-- What is known comes from the stages before. -/
theorem origin_newNames {before : List ResourceList} {l : ResourceList} {known : List SharedName}
    (h : ∀ k ∈ known, Origin before k) :
    ∀ k ∈ known ++ newNames l.stage known (firstOfEach l.resources), Origin (before ++ [l]) k := by
  intro k hk
  rcases List.mem_append.1 hk with hk | hk
  · obtain ⟨l', hl', hstage, hfirst⟩ := h k hk
    exact ⟨l', List.mem_append_left _ hl', hstage, hfirst⟩
  · obtain ⟨r, hr, rfl⟩ := List.mem_map.1 hk
    refine ⟨l, by simp, rfl, ?_⟩
    exact first?_eq_some_iff.2 ⟨List.mem_of_mem_filter hr, rfl⟩

/-- The failure tells a property in which the resources that speak for a name in two stages
differ. -/
def Clash (pipeline : String) (l l' : ResourceList) (e : ShaderError) : Prop :=
  ∃ name property r r', l.first? name = some r ∧ l'.first? name = some r' ∧
    r.value property ≠ r'.value property ∧
    e = .incompatibleResource pipeline name l.stage l'.stage property (r.value property)
      (r'.value property)

/-- An error tells of a clash with an earlier stage. -/
theorem exists_clash_of_compareAll {pipeline : String} {before : List ResourceList}
    {l : ResourceList} {known : List SharedName} {rs : List Resource} {e : ShaderError}
    (hknown : ∀ k ∈ known, Origin before k) (hrs : rs ⊆ firstOfEach l.resources)
    (h : compareAll pipeline l.stage known rs = .error e) :
    ∃ l' ∈ before, Clash pipeline l' l e := by
  induction rs with
  | nil => cases h
  | cons r rs ih =>
    obtain ⟨hr, hrs⟩ := List.cons_subset.1 hrs
    rw [compareAll] at h
    split at h
    next k hfind =>
      split at h
      next property v w hdifference =>
        have hname : k.name = r.semanticName := by simpa using List.find?_some hfind
        obtain ⟨rfl, rfl, hne⟩ := Resource.difference?_eq_some hdifference
        obtain ⟨l', hl', hstage, hfirst⟩ := hknown k (List.mem_of_find?_eq_some hfind)
        cases h
        exact ⟨l', hl', r.semanticName, property, k.resource, r, hname ▸ hfirst,
          first?_eq_some_iff.2 ⟨hr, rfl⟩, hne, by rw [hstage]⟩
      next => exact ih hrs h
    next =>
      rcases bind_eq_error_iff.1 h with h | ⟨_, -, h⟩
      · exact ih hrs h
      · cases h

/-- A run that fails fails at a stage, by what one before it said. -/
theorem exists_clash_of_checkFrom {pipeline : String} {before ls : List ResourceList}
    {known : List SharedName} {e : ShaderError} (hknown : ∀ k ∈ known, Origin before k)
    (h : checkFrom pipeline known ls = .error e) :
    ∃ (i j : Nat) (l l' : ResourceList), i < j ∧ (before ++ ls)[i]? = some l ∧
      (before ++ ls)[j]? = some l' ∧ Clash pipeline l l' e := by
  induction ls generalizing before known with
  | nil => cases h
  | cons l ls ih =>
    rw [checkFrom] at h
    rcases bind_eq_error_iff.1 h with h | ⟨new, hnew, h⟩
    · obtain ⟨l', hl', hclash⟩ := exists_clash_of_compareAll hknown (List.Subset.refl _) h
      obtain ⟨i, hi, rfl⟩ := List.mem_iff_getElem.1 hl'
      refine ⟨i, before.length, before[i], l, hi, ?_, by simp, hclash⟩
      rw [List.getElem?_append_left hi, List.getElem?_eq_getElem hi]
    · obtain ⟨-, rfl⟩ := compareAll_eq_ok_iff.1 hnew
      simpa using ih (origin_newNames hknown) h

/-- An error tells of a clash between two stages. -/
theorem exists_clash_of_check {pipeline : String} {ls : List ResourceList} {e : ShaderError}
    (h : check pipeline ls = .error e) :
    ∃ (i j : Nat) (l l' : ResourceList), i < j ∧ ls[i]? = some l ∧ ls[j]? = some l' ∧
      Clash pipeline l l' e := by
  have hknown : ∀ k ∈ ([] : List SharedName), Origin [] k := by simp
  exact exists_clash_of_checkFrom hknown h

theorem pairwise_agree_iff {ls : List ResourceList} :
    ls.Pairwise Agree ↔
      ∀ (i j : Nat) (l l' : ResourceList), i ≠ j → ls[i]? = some l → ls[j]? = some l' →
        Agree l l' := by
  rw [List.pairwise_iff_getElem]
  constructor
  · intro h i j l l' hij hl hl'
    obtain ⟨hi, rfl⟩ := List.getElem?_eq_some_iff.1 hl
    obtain ⟨hj, rfl⟩ := List.getElem?_eq_some_iff.1 hl'
    rcases Nat.lt_or_gt_of_ne hij with hlt | hlt
    · exact h i j hi hj hlt
    · exact Std.Symm.symm _ _ (h j i hj hi hlt)
  · intro h i j hi hj hlt
    exact h i j _ _ (Nat.ne_of_lt hlt) (List.getElem?_eq_getElem hi) (List.getElem?_eq_getElem hj)

/-- The check is the relation between every two stages, so their order does not matter, and what it
reports is true of two of them. -/
theorem check_pairwise (pipeline : String) (ls : List ResourceList) :
    (check pipeline ls = .ok () ↔
        ∀ (i j : Nat) (l l' : ResourceList), i ≠ j → ls[i]? = some l → ls[j]? = some l' →
          ∀ name r r', l.first? name = some r → l'.first? name = some r' →
            r.category = r'.category ∧ r.dimension = r'.dimension ∧
              r.sampleType = r'.sampleType ∧ r.format = r'.format ∧
              r.arraySize = r'.arraySize) ∧
      (∀ ls', ls.Perm ls' → (check pipeline ls = .ok () ↔ check pipeline ls' = .ok ())) ∧
      ∀ e, check pipeline ls = .error e →
        ∃ (i j : Nat) (l l' : ResourceList), i < j ∧ ls[i]? = some l ∧ ls[j]? = some l' ∧
      Clash pipeline l l' e := by
  refine ⟨?_, fun ls' hperm => ?_, fun e => exists_clash_of_check⟩
  · simp only [check_eq_ok_iff, pairwise_agree_iff, agree_iff, Resource.alike_iff]
  · rw [check_eq_ok_iff, check_eq_ok_iff, hperm.pairwise_iff fun h => Std.Symm.symm _ _ h]

/-- Stages with resources under the name `t`: in a stage only the first of them counts, and as the
second stage has none, the third is compared with the first. -/
def apart : List ResourceList :=
  [(.vertex, [.sampler, .sampledTexture]), (.geometry, []),
    (.pixel, [.sampledTexture, .sampler])].map fun (stage, categories) =>
      { shader := "s", stage, language := .wgsl
        resources := categories.map fun c => .ofCategory "t" c ⟨0, 0⟩ }

/-- A name that stands for a sampler in one stage and for a texture in another. -/
theorem check_pairwise_apart :
    check "P" apart =
      .error (.incompatibleResource "P" "t" .vertex .pixel .category "Sampler" "SampledTexture") ∧
    ∃ (i j : Nat) (l l' : ResourceList), i < j ∧ apart[i]? = some l ∧ apart[j]? = some l' ∧
      Clash "P" l l' (.incompatibleResource "P" "t" .vertex .pixel .category "Sampler"
        "SampledTexture") :=
  ⟨by decide, (check_pairwise "P" apart).2.2 _ (by decide)⟩

end CrossStage

end ShaderBind
