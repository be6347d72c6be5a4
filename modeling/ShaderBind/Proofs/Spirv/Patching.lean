import ShaderBind.Proofs.Spirv.Preamble
import Mathlib.Data.List.Basic

/-!
# Patched words read back

Each literal that the decorations of a module refer to stands in a word of its own, the third
operand of an instruction (`positions_collect`). `patch` writes there and nowhere else
(`patch_eq_ok`), so that the bound variables of the new words are those of the old, each at the
place it is moved to, and the places that a patch says it found are those that were read and that
the table moves (`readBindings_patch`).
-/

namespace ShaderBind.Spirv

/-! ## The words that decorations refer to -/

/-- The words that hold the numbers of a variable. -/
def Decorations.positions (d : Decorations) : List Nat :=
  (d.set.toList ++ d.binding.toList).map Literal.position

/-- The words that hold the numbers of the variables. -/
def positions (ds : List Decorations) : List Nat :=
  ds.flatMap Decorations.positions

theorem positions_cons (d : Decorations) (ds : List Decorations) :
    positions (d :: ds) = d.positions ++ positions ds :=
  rfl

/-- A change that moves a number of one variable to the word `p`, as far as positions go. -/
structure PutsAt (p : Nat) (f : Decorations → Decorations) : Prop where
  mem : ∀ d, ∀ q ∈ (f d).positions, q = p ∨ q ∈ d.positions
  nodup : ∀ d, d.positions.Nodup → p ∉ d.positions → (f d).positions.Nodup

theorem putsAt_set (l : Literal) : PutsAt l.position fun d => { d with set := some l } where
  mem d q hq := by
    simp only [Decorations.positions, Option.toList_some, List.singleton_append, List.map_cons,
      List.mem_cons] at hq
    exact hq.imp id fun hq => by simp [Decorations.positions, hq]
  nodup d hd hp := by
    simp only [Decorations.positions, List.map_append] at hd hp
    simp only [Decorations.positions, Option.toList_some, List.singleton_append, List.map_cons]
    exact List.nodup_cons.2 ⟨fun h => hp (List.mem_append_right _ h), (List.nodup_append.1 hd).2.1⟩

theorem putsAt_binding (l : Literal) :
    PutsAt l.position fun d => { d with binding := some l } where
  mem d q hq := by
    simp only [Decorations.positions, Option.toList_some, List.map_append, List.map_cons,
      List.map_nil, List.mem_append, List.mem_singleton] at hq
    exact hq.symm.imp id fun hq => by simp [Decorations.positions, hq]
  nodup d hd hp := by
    simp only [Decorations.positions, List.map_append, List.mem_append, not_or] at hd hp
    simp only [Decorations.positions, Option.toList_some, List.map_append, List.map_cons,
      List.map_nil]
    refine List.nodup_append.2 ⟨(List.nodup_append.1 hd).1, by simp, ?_⟩
    rintro q hq _ hp' rfl
    rw [List.mem_singleton.1 hp'] at hq
    exact hp.1 hq

theorem PutsAt.mem_positions_update {p : Nat} {f : Decorations → Decorations} (hf : PutsAt p f)
    (id : UInt32) (ds : List Decorations) {q : Nat} (hq : q ∈ positions (update id f ds)) :
    q = p ∨ q ∈ positions ds := by
  have hnew : q ∈ (f { id }).positions → q = p := fun hq =>
    (hf.mem _ q hq).elim (fun h => h) (by simp [Decorations.positions])
  induction ds with
  | nil =>
    simp only [update, positions_cons, List.mem_append] at hq
    exact .inl (hq.elim hnew (by simp [positions]))
  | cons d ds ih =>
    unfold update at hq
    split at hq
    · simp only [positions_cons, List.mem_append] at hq ⊢
      rcases hq with hq | hq
      · exact (hf.mem d q hq).imp_right .inl
      · exact .inr (.inr hq)
    · split at hq
      · simp only [positions_cons (f _), List.mem_append] at hq
        exact hq.imp_left hnew
      · simp only [positions_cons, List.mem_append] at hq ⊢
        rcases hq with hq | hq
        · exact .inr (.inl hq)
        · exact (ih hq).imp_right .inr

theorem PutsAt.nodup_positions_update {p : Nat} {f : Decorations → Decorations} (hf : PutsAt p f)
    (id : UInt32) {ds : List Decorations} (hds : (positions ds).Nodup) (hp : p ∉ positions ds) :
    (positions (update id f ds)).Nodup := by
  have hnew : (f { id }).positions.Nodup :=
    hf.nodup { id } (by simp [Decorations.positions]) (by simp [Decorations.positions])
  induction ds with
  | nil => simpa [update, positions] using hnew
  | cons d ds ih =>
    rw [positions_cons, List.mem_append, not_or] at hp
    have hcut := hds
    rw [positions_cons, List.nodup_append] at hcut
    obtain ⟨hd, hrest, hapart⟩ := hcut
    unfold update
    split
    · refine List.nodup_append.2 ⟨hf.nodup d hd hp.1, hrest, fun q hq r hr => ?_⟩
      rcases hf.mem d q hq with rfl | hq
      · rintro rfl
        exact hp.2 hr
      · exact hapart q hq r hr
    · split
      · refine List.nodup_append.2 ⟨hnew, hds, fun q hq r hr => ?_⟩
        rcases hf.mem _ q hq with rfl | hq
        · rintro rfl
          exact not_or.2 hp (List.mem_append.1 hr)
        · simp [Decorations.positions] at hq
      · refine List.nodup_append.2 ⟨hd, ih hrest hp.2, fun q hq r hr => ?_⟩
        rcases hf.mem_positions_update id ds hr with rfl | hr
        · rintro rfl
          exact hp.1 hq
        · exact hapart q hq r hr

/-- An instruction that is noted down adds at most its third operand, and a word that comes in only
once stays so. -/
theorem positions_collectOne {ds : List Decorations} {i : Instruction}
    (hds : (positions ds).Nodup) (hi : i.position + 3 ∉ positions ds) :
    (positions (collectOne ds i)).Nodup ∧
      ∀ q ∈ positions (collectOne ds i),
        q ∈ positions ds ∨ 3 ≤ i.operands.length ∧ q = i.position + 3 := by
  match hops : i.operands with
  | [] | [_] | [_, _] =>
    rw [collectOne_of_short (by simp [hops])]
    exact ⟨hds, fun q hq => .inl hq⟩
  | id :: kind :: value :: tl =>
    have hputs : ∀ f, PutsAt (i.position + 3) f → (positions (update id f ds)).Nodup ∧
        ∀ q ∈ positions (update id f ds), q ∈ positions ds ∨
          3 ≤ (id :: kind :: value :: tl).length ∧ q = i.position + 3 := fun f hf =>
      ⟨hf.nodup_positions_update id hds hi, fun q hq =>
        (hf.mem_positions_update id ds hq).symm.imp_right fun h => ⟨by simp, h⟩⟩
    rw [collectOne_of_operands hops]
    split
    · exact hputs _ (putsAt_set ⟨i.position + 3, value⟩)
    · split
      · exact hputs _ (putsAt_binding ⟨i.position + 3, value⟩)
      · exact ⟨hds, fun q hq => .inl hq⟩

theorem positions_foldl_collectOne {is : List Instruction} (his : Consecutive is)
    {ds : List Decorations} (hds : (positions ds).Nodup)
    (hfresh : ∀ i ∈ is, ∀ q ∈ positions ds, q < i.position + 3) :
    (positions (is.foldl collectOne ds)).Nodup ∧
      ∀ q ∈ positions (is.foldl collectOne ds), q ∈ positions ds ∨ IsThirdOperand is q := by
  induction is generalizing ds with
  | nil => exact ⟨hds, fun q hq => .inl hq⟩
  | cons i is ih =>
    obtain ⟨hnext, his⟩ := List.pairwise_cons.1 his
    obtain ⟨hfirst, hfresh⟩ := List.forall_mem_cons.1 hfresh
    obtain ⟨hnodup, hmem⟩ := positions_collectOne hds fun h => Nat.lt_irrefl _ (hfirst _ h)
    obtain ⟨hnodup', hmem'⟩ := ih his hnodup fun j hj q hq => by
      rcases hmem q hq with hq | ⟨hthree, rfl⟩
      · exact hfresh j hj q hq
      · have := hnext j hj
        simp only [Instruction.stop] at this
        omega
    refine ⟨hnodup', fun q hq => ?_⟩
    rcases hmem' q hq with hq | ⟨j, hj, hthird⟩
    · exact (hmem q hq).imp_right fun h => ⟨i, List.mem_cons_self, h⟩
    · exact .inr ⟨j, List.mem_cons_of_mem _ hj, hthird⟩

/-- Every number of a module's decorations stands in a word of its own, which is the third operand
of an instruction, and is the number read there. -/
theorem positions_collect {words : List UInt32} {is : List Instruction}
    (h : preamble words = .ok is) :
    (positions (is.foldl collectOne [])).Nodup ∧
      (∀ q ∈ positions (is.foldl collectOne []), IsThirdOperand is q ∧ q < words.length) ∧
      ∀ d ∈ is.foldl collectOne [], d.reread words = d := by
  obtain ⟨hpairs, hall⟩ := within_of_preambleFrom (preamble_eq_ok_iff.1 h).2.2
  have hnone : ∀ q, q ∉ positions [] := fun q hq => nomatch hq
  obtain ⟨hnodup, hmem⟩ := positions_foldl_collectOne hpairs (show (positions []).Nodup from .nil)
    fun _ _ q hq => (hnone q hq).elim
  refine ⟨hnodup, fun q hq => ?_, ?_⟩
  · rcases hmem q hq with hq | ⟨i, hi, hthree, rfl⟩
    · exact (hnone q hq).elim
    · have hstop := (hall i hi).2.1
      simp only [Instruction.stop] at hstop
      exact ⟨⟨i, hi, hthree, rfl⟩, by omega⟩
  · have hread := (collect_eq_ok_iff.2 ⟨is, h, rfl⟩).symm.trans (collect_reread h .rfl)
    simpa using List.map_eq_map_iff.1 ((List.map_id _).trans (Except.ok.inj hread)).symm

/-! ## Writing the moves -/

theorem Decorations.place?_reread {d : Decorations} {words : List UInt32} :
    (d.reread words).place? = d.binding.map fun b =>
      ⟨(d.set.map fun s => words[s.position]?.getD 0).getD 0, words[b.position]?.getD 0⟩ := by
  rcases d with ⟨id, _ | s, _ | b⟩ <;> rfl

theorem Decorations.reread_congr {d : Decorations} {words words' : List UInt32}
    (h : ∀ q ∈ d.positions, words'[q]? = words[q]?) : d.reread words' = d.reread words := by
  rcases d with ⟨id, _ | s, _ | b⟩ <;>
    simp_all [Decorations.positions, Decorations.reread, Literal.reread]

/-- A step that goes well writes only where the numbers of the variable stand, and the variable is
then at the place it is moved to. -/
theorem patchOne_eq_ok {moves : Moves} {words words' : List UInt32} {d : Decorations}
    {found : Option Coord} (h : patchOne moves words d = (words', .ok found))
    (hnodup : d.positions.Nodup) (hin : ∀ q ∈ d.positions, q < words.length)
    (hread : d.reread words = d) :
    words'.length = words.length ∧ (∀ q, q ∉ d.positions → words'[q]? = words[q]?) ∧
      (d.reread words').place? = d.place?.map moves.apply ∧
      ∀ c, found = some c ↔ d.place? = some c ∧ (moves.target? c).isSome := by
  obtain ⟨id, set, _ | b⟩ := d
  · cases h
    exact ⟨rfl, fun _ _ => rfl, rfl, by simp [Decorations.place?]⟩
  have hplace : (⟨id, set, some b⟩ : Decorations).place? =
    some ⟨(set.map Literal.value).getD 0, b.value⟩ := rfl
  simp only [patchOne] at h
  generalize (⟨(set.map Literal.value).getD 0, b.value⟩ : Coord) = place at h hplace
  rw [Decorations.place?_reread, hplace]
  cases htarget : moves.target? place with
  | none =>
    simp only [htarget] at h
    cases h
    refine ⟨rfl, fun _ _ => rfl, ?_, ?_⟩
    · rw [← Decorations.place?_reread, hread, hplace]
      simp [Moves.apply, htarget]
    · rintro c
      refine ⟨fun h => (by cases h), fun ⟨hc, hsome⟩ => ?_⟩
      cases hc
      simp [htarget] at hsome
  | some target =>
    simp only [htarget] at h
    have happly : moves.apply place = target := by simp [Moves.apply, htarget]
    have hfound : ∀ c, some place = some c ↔ some place = some c ∧ (moves.target? c).isSome := by
      refine fun c => ⟨fun hc => ⟨hc, ?_⟩, And.left⟩
      cases hc
      simp [htarget]
    have hb := hin b.position (by simp [Decorations.positions])
    obtain _ | s := set
    · simp only at h
      split at h
      next hgroup =>
        cases h
        refine ⟨by simp, fun q hq => ?_, ?_, hfound⟩
        · rw [List.getElem?_set_ne]
          rintro rfl
          exact hq (by simp [Decorations.positions])
        · simp [happly, List.getElem?_set_self hb, ← hgroup]
      next => cases h
    · simp only at h
      cases h
      have hne : s.position ≠ b.position := by
        simpa [Decorations.positions] using hnodup
      have hs := hin s.position (by simp [Decorations.positions])
      refine ⟨by simp, fun q hq => ?_, ?_, hfound⟩
      · simp only [Decorations.positions, Option.toList_some, List.singleton_append, List.map_cons,
          List.map_nil, List.mem_cons, List.not_mem_nil, or_false, not_or] at hq
        rw [List.getElem?_set_ne (Ne.symm hq.1), List.getElem?_set_ne (Ne.symm hq.2)]
      · have hgroup : ((words.set b.position target.binding).set s.position
            target.group)[s.position]? = some target.group :=
          List.getElem?_set_self (by simpa using hs)
        have hbinding : ((words.set b.position target.binding).set s.position
            target.group)[b.position]? = some target.binding := by
          rw [List.getElem?_set_ne hne, List.getElem?_set_self hb]
        simp [happly, hgroup, hbinding]

/-- The run: what each variable's step wrote is still there at the end, since no two numbers share
a word. -/
theorem patchAll_eq_ok {moves : Moves} {words words' : List UInt32} {ds : List Decorations}
    {found : List Coord} (h : patchAll moves words ds = (words', .ok found))
    (hnodup : (positions ds).Nodup) (hin : ∀ q ∈ positions ds, q < words.length)
    (hread : ∀ d ∈ ds, d.reread words = d) :
    words'.length = words.length ∧ (∀ q, q ∉ positions ds → words'[q]? = words[q]?) ∧
      (∀ d ∈ ds, (d.reread words').place? = d.place?.map moves.apply) ∧
      ∀ c, c ∈ found ↔ (∃ d ∈ ds, d.place? = some c) ∧ (moves.target? c).isSome := by
  induction ds generalizing words found with
  | nil =>
    cases h
    exact ⟨rfl, fun _ _ => rfl, by simp, by simp⟩
  | cons d ds ih =>
    simp only [patchAll] at h
    rcases hone : patchOne moves words d with ⟨mid, e | found₁⟩
    · simp [hone] at h
    simp only [hone] at h
    rcases hall : patchAll moves mid ds with ⟨last, e | found₂⟩
    · simp [hall] at h
    simp only [hall] at h
    cases h
    rw [positions_cons, List.nodup_append] at hnodup
    obtain ⟨hd, hds, hapart⟩ := hnodup
    simp only [positions_cons, List.mem_append] at hin
    obtain ⟨hdread, hdsread⟩ := List.forall_mem_cons.1 hread
    obtain ⟨hlength₁, hframe₁, hplace₁, hfound₁⟩ :=
      patchOne_eq_ok hone hd (fun q hq => hin q (.inl hq)) hdread
    have hkept : ∀ q ∈ positions ds, mid[q]? = words[q]? := fun q hq =>
      hframe₁ q fun hq' => hapart q hq' q hq rfl
    obtain ⟨hlength₂, hframe₂, hplace₂, hfound₂⟩ := ih hall hds
      (fun q hq => hlength₁ ▸ hin q (.inr hq))
      (fun e he => (Decorations.reread_congr fun q hq =>
        hkept q (List.mem_flatMap.2 ⟨e, he, hq⟩)).trans (hdsread e he))
    refine ⟨hlength₂.trans hlength₁, fun q hq => ?_, ?_, fun c => ?_⟩
    · rw [positions_cons, List.mem_append, not_or] at hq
      rw [hframe₂ q hq.2, hframe₁ q hq.1]
    · refine List.forall_mem_cons.2 ⟨?_, hplace₂⟩
      rw [Decorations.reread_congr fun q hq => hframe₂ q fun hq' => hapart q hq q hq' rfl]
      exact hplace₁
    · simp only [List.mem_append, Option.mem_toList, hfound₁ c, hfound₂ c, List.mem_cons,
        or_and_right, exists_or, exists_eq_left]

theorem patch_eq_ok {words words' : List UInt32} {moves : Moves} {found : List Coord}
    (h : patch words moves = (words', .ok found)) :
    ∃ ds, collect words = .ok ds ∧ collect words' = .ok (ds.map (·.reread words')) ∧
      words'.length = words.length ∧ (∀ q, q ∉ positions ds → words'[q]? = words[q]?) ∧
      (∀ d ∈ ds, (d.reread words').place? = d.place?.map moves.apply) ∧
      ∀ c, c ∈ found ↔ (∃ d ∈ ds, d.place? = some c) ∧ (moves.target? c).isSome := by
  unfold patch at h
  rcases hcollect : collect words with e | ds
  · simp [hcollect] at h
  simp only [hcollect] at h
  rcases hall : patchAll moves words ds with ⟨last, e | places⟩
  · simp [hall] at h
  simp only [hall] at h
  cases h
  obtain ⟨is, hpreamble, rfl⟩ := collect_eq_ok_iff.1 hcollect
  obtain ⟨hnodup, hthird, hread⟩ := positions_collect hpreamble
  obtain ⟨hlength, hframe, hplace, hfound⟩ :=
    patchAll_eq_ok hall hnodup (fun q hq => (hthird q hq).2) hread
  have hagree : AgreeFrom 0 is words words' :=
    ⟨hlength, fun q _ hq => hframe q fun hq' => hq (hthird q hq').1⟩
  refine ⟨_, rfl, collect_reread hpreamble hagree, hlength, hframe, hplace, fun c => ?_⟩
  rw [List.mem_eraseDups, hfound]

/-- Without moves the words stay. -/
theorem patch_nil {words : List UInt32} {ds : List Decorations} (h : collect words = .ok ds) :
    patch words [] = (words, .ok []) := by
  have hone : ∀ d, patchOne [] words d = (words, .ok none) := by
    rintro ⟨id, set, _ | b⟩ <;> rfl
  have hall : ∀ ds, patchAll [] words ds = (words, .ok []) := by
    intro ds
    induction ds with
    | nil => rfl
    | cons d ds ih =>
      simp only [patchAll, hone, ih]
      rfl
  simp only [patch, h, hall]
  rfl

theorem readBindings_eq_ok_iff {words : List UInt32} {bs : List (UInt32 × Coord)} :
    readBindings words = .ok bs ↔ ∃ ds, collect words = .ok ds ∧
      bs = ds.filterMap fun d => d.place?.map fun place => (d.id, place) := by
  simp only [readBindings, bind_eq_ok_iff, pure_eq_ok_iff, @eq_comm _ bs]

/-- The words after a patch bind the same variables, each at the place it is moved to, and the patch
tells which of the places read before were moved. -/
theorem readBindings_patch {words words' : List UInt32} {moves : Moves} {found : List Coord}
    (h : patch words moves = (words', .ok found)) :
    ∃ bs, readBindings words = .ok bs ∧
      readBindings words' = .ok (bs.map fun b => (b.1, moves.apply b.2)) ∧
      ∀ c, c ∈ found ↔ c ∈ bs.map Prod.snd ∧ (moves.target? c).isSome := by
  obtain ⟨ds, hcollect, hcollect', -, -, hplace, hfound⟩ := patch_eq_ok h
  refine ⟨_, readBindings_eq_ok_iff.2 ⟨ds, hcollect, rfl⟩,
    readBindings_eq_ok_iff.2 ⟨_, hcollect', ?_⟩, fun c => ?_⟩
  · rw [List.map_filterMap, List.filterMap_map]
    refine List.filterMap_congr fun d hd => ?_
    rw [Function.comp_apply, hplace d hd]
    cases d.place? <;> rfl
  · rw [hfound c]
    refine and_congr_left fun _ => ?_
    simp only [List.mem_map, List.mem_filterMap, Option.map_eq_some_iff, Prod.exists]
    constructor
    · rintro ⟨d, hd, hc⟩
      exact ⟨d.id, c, ⟨d, hd, c, hc, rfl⟩, rfl⟩
    · rintro ⟨_, _, ⟨d, hd, c', hc', hpair⟩, rfl⟩
      cases hpair
      exact ⟨d, hd, hc'⟩

end ShaderBind.Spirv
