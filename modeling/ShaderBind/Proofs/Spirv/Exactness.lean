import ShaderBind.Proofs.Spirv.Patching
import Mathlib.Data.List.Nodup

/-!
# A patch is exact

What is read from a module is said by its instructions alone: the last instruction that gives a
variable its binding counts, and the last one that gives it its set, which is 0 if there is none
(`mem_readBindings_iff`). A patch is a list of writes (`Decorations.writes`), each to a word of its
own, the number in such an instruction. So it makes no difference in which order the variables are
visited (`patchAll_perm`), and `patch_exact` says for every order what is read back, what is told as
found, and which words can change.
-/

namespace ShaderBind.Spirv

/-! ## The last decoration counts -/

/-- The number that an instruction gives a variable with a decoration of a kind. -/
def Instruction.literal? (kind id : UInt32) (i : Instruction) : Option Literal :=
  match i.operands with
  | id' :: kind' :: value :: _ =>
    if i.opcode = opDecorate ∧ kind' = kind ∧ id' = id then some ⟨i.position + 3, value⟩ else none
  | _ => none

/-- The last number that instructions give a variable with a decoration of a kind. -/
def lastLiteral? (kind id : UInt32) (is : List Instruction) : Option Literal :=
  is.reverse.findSome? (·.literal? kind id)

theorem lastLiteral?_cons (kind id : UInt32) (i : Instruction) (is : List Instruction) :
    lastLiteral? kind id (i :: is) = (lastLiteral? kind id is).or (i.literal? kind id) := by
  unfold lastLiteral?
  rw [List.reverse_cons, List.findSome?_append, List.findSome?_singleton]

/-- The decorations stand in the order of their ids, one for each. -/
abbrev Ordered (ds : List Decorations) : Prop :=
  (ds.map Decorations.id).Pairwise (· < ·)

/-- What a list of decorations says of a variable. -/
def decorationsOf (id : UInt32) (ds : List Decorations) : Decorations :=
  (ds.find? fun d => d.id = id).getD { id }

theorem decorationsOf_cons (id : UInt32) (d : Decorations) (ds : List Decorations) :
    decorationsOf id (d :: ds) = if d.id = id then d else decorationsOf id ds := by
  unfold decorationsOf
  rw [List.find?_cons]
  by_cases h : d.id = id <;> simp [h]

theorem decorationsOf_of_not_mem {id : UInt32} {ds : List Decorations}
    (h : id ∉ ds.map Decorations.id) : decorationsOf id ds = { id } := by
  have hnone : (ds.find? fun d => d.id = id) = none := by simpa using h
  rw [decorationsOf, hnone, Option.getD_none]

theorem decorationsOf_of_mem {ds : List Decorations} (hds : Ordered ds) {d : Decorations}
    (h : d ∈ ds) : decorationsOf d.id ds = d := by
  induction ds with
  | nil => cases h
  | cons e ds ih =>
    obtain ⟨hfirst, hrest⟩ := List.pairwise_cons.1 hds
    rw [decorationsOf_cons]
    rcases List.mem_cons.1 h with rfl | h
    · rw [if_pos rfl]
    · have hlt : e.id < d.id := hfirst d.id (List.mem_map_of_mem h)
      rw [if_neg (UInt32.ne_of_lt hlt), ih hrest h]

section

variable {id : UInt32} {f : Decorations → Decorations} (hf : ∀ d, (f d).id = d.id)

include hf

theorem mem_ids_update {ds : List Decorations} {x : UInt32} :
    x ∈ (update id f ds).map Decorations.id ↔ x = id ∨ x ∈ ds.map Decorations.id := by
  induction ds with
  | nil => simp [update, hf]
  | cons d ds ih =>
    unfold update
    split
    next hid => simp [hf, hid]
    next =>
      split
      · simp [hf]
      · rw [List.map_cons, List.mem_cons, ih, List.map_cons, List.mem_cons]
        exact or_left_comm

theorem ordered_update {ds : List Decorations} (hds : Ordered ds) : Ordered (update id f ds) := by
  induction ds with
  | nil => simp [update, Ordered]
  | cons d ds ih =>
    obtain ⟨hfirst, hrest⟩ := List.pairwise_cons.1 hds
    unfold update
    split
    · exact List.pairwise_cons.2 ⟨by simpa [hf] using hfirst, hrest⟩
    next hne =>
      split
      next hlt =>
        refine List.pairwise_cons.2 ⟨fun x hx => ?_, hds⟩
        rw [hf]
        rcases List.mem_cons.1 hx with rfl | hx
        · exact hlt
        · exact UInt32.lt_trans hlt (hfirst x hx)
      next hle =>
        refine List.pairwise_cons.2 ⟨fun x hx => ?_, ih hrest⟩
        rcases (mem_ids_update hf).1 hx with rfl | hx
        · exact UInt32.lt_of_le_of_ne (UInt32.not_lt.1 hle) hne
        · exact hfirst x hx

/-- A change to one variable is seen there and nowhere else. -/
theorem decorationsOf_update {ds : List Decorations} (hds : Ordered ds) (x : UInt32) :
    decorationsOf x (update id f ds) =
      if x = id then f (decorationsOf id ds) else decorationsOf x ds := by
  induction ds with
  | nil =>
    rw [update, decorationsOf_cons, hf]
    exact ite_congr (propext eq_comm) (fun _ => rfl) fun _ => rfl
  | cons d ds ih =>
    obtain ⟨hfirst, hrest⟩ := List.pairwise_cons.1 hds
    unfold update
    split
    next hid =>
      subst hid
      rw [decorationsOf_cons, decorationsOf_cons, decorationsOf_cons, if_pos rfl, hf]
      by_cases hx : x = d.id
      · simp [hx]
      · simp [hx, Ne.symm hx]
    next hne =>
      split
      next hlt =>
        -- every id behind this place is larger, so the variable is new
        have hnew : id ∉ (d :: ds).map Decorations.id := by
          intro hmem
          rcases List.mem_cons.1 hmem with h | h
          · exact hne h.symm
          · exact UInt32.lt_asymm hlt (hfirst id h)
        rw [decorationsOf_cons, hf, decorationsOf_of_not_mem hnew]
        exact ite_congr (propext eq_comm) (fun _ => rfl) fun _ => rfl
      next =>
        rw [decorationsOf_cons, decorationsOf_cons, decorationsOf_cons, ih hrest, if_neg hne]
        by_cases hx : d.id = x
        · have hother : x ≠ id := fun h => hne (hx.trans h)
          simp [hx, hother]
        · simp [hx]

end

theorem ordered_collectOne {ds : List Decorations} (hds : Ordered ds) (i : Instruction) :
    Ordered (collectOne ds i) := by
  match hops : i.operands with
  | [] | [_] | [_, _] =>
    rw [collectOne_of_short (by simp [hops])]
    exact hds
  | id :: kind :: value :: tl =>
    rw [collectOne_of_operands hops]
    split
    · refine ordered_update ?_ hds
      exact fun _ => rfl
    · split
      · refine ordered_update ?_ hds
        exact fun _ => rfl
      · exact hds

/-- An instruction replaces the number that it gives, and keeps the others. -/
theorem decorationsOf_collectOne {ds : List Decorations} (hds : Ordered ds) (i : Instruction)
    (x : UInt32) :
    (decorationsOf x (collectOne ds i)).set =
        (i.literal? decDescriptorSet x).or (decorationsOf x ds).set ∧
      (decorationsOf x (collectOne ds i)).binding =
        (i.literal? decBinding x).or (decorationsOf x ds).binding := by
  match hops : i.operands with
  | [] | [_] | [_, _] =>
    rw [collectOne_of_short (by simp [hops])]
    simp [Instruction.literal?, hops]
  | id :: kind :: value :: tl =>
    have hliteral : ∀ kind', i.literal? kind' x =
        if i.opcode = opDecorate ∧ kind = kind' ∧ id = x then some ⟨i.position + 3, value⟩
        else none := by
      intro kind'
      simp only [Instruction.literal?, hops]
    have hkinds : decDescriptorSet ≠ decBinding := by decide
    rw [collectOne_of_operands hops, hliteral, hliteral]
    split
    next hset =>
      obtain ⟨hopcode, rfl⟩ := hset
      rw [decorationsOf_update ?_ hds]
      · by_cases hx : x = id
        · simp [hx, hopcode, hkinds]
        · simp [hx, Ne.symm hx]
      · exact fun _ => rfl
    next hset =>
      split
      next hbinding =>
        obtain ⟨hopcode, rfl⟩ := hbinding
        rw [decorationsOf_update ?_ hds]
        · by_cases hx : x = id
          · simp [hx, hopcode, hkinds.symm]
          · simp [hx, Ne.symm hx]
        · exact fun _ => rfl
      next hbinding =>
        rw [if_neg fun h => hset ⟨h.1, h.2.1⟩, if_neg fun h => hbinding ⟨h.1, h.2.1⟩]
        exact ⟨rfl, rfl⟩

/-- The run over the instructions: what a later one gives goes before what was known. -/
theorem decorationsOf_foldl (is : List Instruction) {ds : List Decorations} (hds : Ordered ds) :
    Ordered (is.foldl collectOne ds) ∧ ∀ x,
      (decorationsOf x (is.foldl collectOne ds)).set =
          (lastLiteral? decDescriptorSet x is).or (decorationsOf x ds).set ∧
        (decorationsOf x (is.foldl collectOne ds)).binding =
          (lastLiteral? decBinding x is).or (decorationsOf x ds).binding := by
  induction is generalizing ds with
  | nil => exact ⟨hds, fun x => ⟨rfl, rfl⟩⟩
  | cons i is ih =>
    obtain ⟨hordered, hrest⟩ := ih (ordered_collectOne hds i)
    refine ⟨hordered, fun x => ?_⟩
    obtain ⟨hset, hbinding⟩ := decorationsOf_collectOne hds i x
    rw [List.foldl_cons, (hrest x).1, (hrest x).2, hset, hbinding, lastLiteral?_cons,
      lastLiteral?_cons, Option.or_assoc, Option.or_assoc]
    exact ⟨rfl, rfl⟩

/-- The decorations of a module are, for each variable, the last ones. -/
theorem decorationsOf_collect (is : List Instruction) :
    Ordered (is.foldl collectOne []) ∧ ∀ x,
      (decorationsOf x (is.foldl collectOne [])).set = lastLiteral? decDescriptorSet x is ∧
        (decorationsOf x (is.foldl collectOne [])).binding = lastLiteral? decBinding x is := by
  obtain ⟨hordered, hlast⟩ := decorationsOf_foldl is (show Ordered [] from .nil)
  refine ⟨hordered, fun x => ?_⟩
  rw [(hlast x).1, (hlast x).2]
  exact ⟨Option.or_none, Option.or_none⟩

/-- What is read, said by the instructions: a variable's place is made of the last binding and of
the last set that they give it, or of set 0. -/
theorem mem_readBindings_iff {words : List UInt32} {is : List Instruction}
    {bs : List (UInt32 × Coord)} (his : preamble words = .ok is)
    (hbs : readBindings words = .ok bs) {id : UInt32} {c : Coord} :
    (id, c) ∈ bs ↔ (lastLiteral? decBinding id is).map Literal.value = some c.binding ∧
      ((lastLiteral? decDescriptorSet id is).map Literal.value).getD 0 = c.group := by
  obtain ⟨ds, hcollect, rfl⟩ := readBindings_eq_ok_iff.1 hbs
  cases hcollect.symm.trans (collect_eq_ok_iff.2 ⟨is, his, rfl⟩)
  obtain ⟨hordered, hlast⟩ := decorationsOf_collect is
  obtain ⟨hset, hbinding⟩ := hlast id
  have hplace : (id, c) ∈ (is.foldl collectOne []).filterMap
      (fun d => d.place?.map fun place => (d.id, place)) ↔
      (decorationsOf id (is.foldl collectOne [])).place? = some c := by
    simp only [List.mem_filterMap, Option.map_eq_some_iff]
    constructor
    · rintro ⟨d, hd, place, hplace, hpair⟩
      cases hpair
      rw [decorationsOf_of_mem hordered hd, hplace]
    · intro hplace
      by_cases hmem : id ∈ (is.foldl collectOne []).map Decorations.id
      · obtain ⟨d, hd, rfl⟩ := List.mem_map.1 hmem
        rw [decorationsOf_of_mem hordered hd] at hplace
        exact ⟨d, hd, c, hplace, rfl⟩
      · rw [decorationsOf_of_not_mem hmem] at hplace
        cases hplace
  rw [hplace, Decorations.place?, hset, hbinding]
  obtain ⟨group, binding⟩ := c
  cases lastLiteral? decBinding id is <;> simp [and_comm]

theorem pairwise_ids_readBindings {words : List UInt32} {bs : List (UInt32 × Coord)}
    (hbs : readBindings words = .ok bs) : (bs.map Prod.fst).Pairwise (· < ·) := by
  obtain ⟨ds, hcollect, rfl⟩ := readBindings_eq_ok_iff.1 hbs
  obtain ⟨is, -, rfl⟩ := collect_eq_ok_iff.1 hcollect
  have hordered := List.pairwise_map.1 (decorationsOf_collect is).1
  rw [List.pairwise_map]
  refine hordered.filterMap _ fun d e hlt b hb b' hb' => ?_
  obtain ⟨_, -, rfl⟩ := Option.map_eq_some_iff.1 hb
  obtain ⟨_, -, rfl⟩ := Option.map_eq_some_iff.1 hb'
  exact hlt

/-! ## The words that hold places -/

/-- The word at `p` is the number in a decoration with a set or with a binding. -/
def IsPlaceLiteral (is : List Instruction) (p : Nat) : Prop :=
  ∃ i ∈ is, i.opcode = opDecorate ∧ p = i.position + 3 ∧
    ∃ id kind value tl, i.operands = id :: kind :: value :: tl ∧
      (kind = decDescriptorSet ∨ kind = decBinding)

theorem isPlaceLiteral_of_lastLiteral? {is : List Instruction} {kind id : UInt32} {l : Literal}
    (h : lastLiteral? kind id is = some l) (hkind : kind = decDescriptorSet ∨ kind = decBinding) :
    IsPlaceLiteral is l.position := by
  obtain ⟨i, hi, hliteral⟩ := List.exists_of_findSome?_eq_some h
  unfold Instruction.literal? at hliteral
  split at hliteral
  next hops =>
    split at hliteral
    next hdecorates =>
      obtain ⟨hopcode, rfl, rfl⟩ := hdecorates
      cases hliteral
      exact ⟨i, List.mem_reverse.1 hi, hopcode, rfl, _, _, _, _, hops, hkind⟩
    next => cases hliteral
  next => cases hliteral

/-- Decorations refer only to words that hold places. -/
theorem isPlaceLiteral_of_mem_positions {is : List Instruction} {p : Nat}
    (h : p ∈ positions (is.foldl collectOne [])) : IsPlaceLiteral is p := by
  obtain ⟨hordered, hlast⟩ := decorationsOf_collect is
  obtain ⟨d, hd, hp⟩ := List.mem_flatMap.1 h
  obtain ⟨hset, hbinding⟩ := hlast d.id
  rw [decorationsOf_of_mem hordered hd] at hset hbinding
  simp only [Decorations.positions, List.mem_map, List.mem_append, Option.mem_toList] at hp
  obtain ⟨l, hl | hl, rfl⟩ := hp
  · exact isPlaceLiteral_of_lastLiteral? (hset.symm.trans hl) (.inl rfl)
  · exact isPlaceLiteral_of_lastLiteral? (hbinding.symm.trans hl) (.inr rfl)

/-! ## A patch as a list of writes -/

/-- The words after some writes. -/
def writeAll (words : List UInt32) (writes : List (Nat × UInt32)) : List UInt32 :=
  writes.foldl (fun words w => words.set w.1 w.2) words

theorem writeAll_append (words : List UInt32) (v w : List (Nat × UInt32)) :
    writeAll words (v ++ w) = writeAll (writeAll words v) w :=
  List.foldl_append

/-- What a patch writes for a variable: the words and their new numbers. -/
def Decorations.writes (moves : Moves) (d : Decorations) : List (Nat × UInt32) :=
  match d.place?.bind moves.target? with
  | none => []
  | some target =>
    (d.binding.toList.map fun b => (b.position, target.binding)) ++
      d.set.toList.map fun s => (s.position, target.group)

/-- What a patch tells of a variable: the place it is moved away from, or that it cannot be moved,
being in set 0 without saying so. -/
def Decorations.verdict (moves : Moves) (d : Decorations) : Except SpirvFault (Option Coord) :=
  match d.place?.bind moves.target? with
  | none => .ok none
  | some target =>
    if d.set.isSome ∨ target.group = 0 then .ok d.place?
    else .error (.noSetDecoration d.id target.group)

/-- What is written and told for a variable does not depend on the words. -/
theorem patchOne_eq (moves : Moves) (words : List UInt32) (d : Decorations) :
    patchOne moves words d = (writeAll words (d.writes moves), d.verdict moves) := by
  obtain ⟨id, set, _ | b⟩ := d
  · rfl
  have hplace : (⟨id, set, some b⟩ : Decorations).place? =
    some ⟨(set.map Literal.value).getD 0, b.value⟩ := rfl
  simp only [patchOne, Decorations.writes, Decorations.verdict, hplace, Option.bind_some]
  cases moves.target? ⟨(set.map Literal.value).getD 0, b.value⟩ with
  | none => rfl
  | some target =>
    cases set with
    | some s => simp [writeAll]
    | none => by_cases hgroup : target.group = 0 <;> simp [writeAll, hgroup]

/-- A run goes well exactly if every variable can be moved, and then makes all the writes. -/
theorem exists_patchAll_eq_ok_iff {moves : Moves} {words words' : List UInt32}
    {ds : List Decorations} :
    (∃ found, patchAll moves words ds = (words', .ok found)) ↔
      words' = writeAll words (ds.flatMap (Decorations.writes moves)) ∧
        ∀ d ∈ ds, ∃ c, d.verdict moves = .ok c := by
  induction ds generalizing words with
  | nil =>
    constructor
    · rintro ⟨found, h⟩
      cases h
      exact ⟨rfl, by simp⟩
    · rintro ⟨rfl, -⟩
      exact ⟨[], rfl⟩
  | cons d ds ih =>
    rw [List.flatMap_cons, writeAll_append, List.forall_mem_cons, and_left_comm, ← ih]
    simp only [patchAll, patchOne_eq]
    rcases d.verdict moves with e | c
    · simp
    · rcases hrest : patchAll moves (writeAll words (d.writes moves)) ds with ⟨last, e | places⟩ <;>
        simp [hrest]

theorem mem_positions_of_mem_writes {moves : Moves} {d : Decorations} {w : Nat × UInt32}
    (hw : w ∈ d.writes moves) : w.1 ∈ d.positions := by
  unfold Decorations.writes at hw
  split at hw
  · cases hw
  · simp only [Decorations.positions, List.mem_append, List.mem_map] at hw ⊢
    rcases hw with ⟨b, hb, rfl⟩ | ⟨s, hs, rfl⟩
    · exact ⟨b, .inr hb, rfl⟩
    · exact ⟨s, .inl hs, rfl⟩

/-- No word is written twice. -/
theorem nodup_writes {moves : Moves} {ds : List Decorations} (h : (positions ds).Nodup) :
    ((ds.flatMap (Decorations.writes moves)).map Prod.fst).Nodup := by
  induction ds with
  | nil => exact .nil
  | cons d ds ih =>
    rw [positions_cons, List.nodup_append] at h
    obtain ⟨hd, hds, hapart⟩ := h
    rw [List.flatMap_cons, List.map_append, List.nodup_append]
    refine ⟨?_, ih hds, fun p hp q hq => ?_⟩
    · unfold Decorations.writes
      split
      · exact .nil
      · rw [Decorations.positions, List.map_append, List.nodup_append_comm] at hd
        rw [List.map_append, List.map_map, List.map_map]
        exact hd
    · obtain ⟨w, hw, rfl⟩ := List.mem_map.1 hp
      obtain ⟨v, hv, rfl⟩ := List.mem_map.1 hq
      obtain ⟨e, he, hv⟩ := List.mem_flatMap.1 hv
      exact hapart _ (mem_positions_of_mem_writes hw) _
        (List.mem_flatMap.2 ⟨e, he, mem_positions_of_mem_writes hv⟩)

/-- Writes to different words can be made in any order. -/
theorem writeAll_perm {writes writes' : List (Nat × UInt32)} (h : writes.Perm writes')
    (hnodup : (writes.map Prod.fst).Nodup) (words : List UInt32) :
    writeAll words writes = writeAll words writes' := by
  refine h.foldl_eq' (fun v hv w hw words => ?_) words
  by_cases hsame : v.1 = w.1
  · rw [List.inj_on_of_nodup_map hnodup hv hw hsame]
  · exact List.set_comm _ _ hsame

/-- Whether a run goes well, and what it writes, does not depend on the order of the variables. -/
theorem patchAll_perm {moves : Moves} {words words' : List UInt32} {ds ds' : List Decorations}
    (h : ds.Perm ds') (hnodup : (positions ds).Nodup) :
    (∃ found, patchAll moves words ds = (words', .ok found)) ↔
      ∃ found, patchAll moves words ds' = (words', .ok found) := by
  rw [exists_patchAll_eq_ok_iff, exists_patchAll_eq_ok_iff,
    writeAll_perm (h.flatMap_right _) (nodup_writes hnodup)]
  simp only [h.mem_iff]

/-! ## Exactness -/

/-- A patch is exact, whatever the order in which it visits the variables. What is read from a
module is one place for each variable, by the last decorations that the instructions before the
first function give it; after the patch it is the same with every place moved, and the places told
as found are those that were read and are moved. The words are as many as before, and differ only in
the numbers of such decorations. Every order writes the same words as the order of the ids. -/
theorem patch_exact {words words' : List UInt32} {moves : Moves} {found : List Coord}
    {ds order : List Decorations} (hds : collect words = .ok ds) (horder : order.Perm ds)
    (h : patchAll moves words order = (words', .ok found)) :
    ∃ is bs, preamble words = .ok is ∧ readBindings words = .ok bs ∧
      ((bs.map Prod.fst).Pairwise (· < ·) ∧ ∀ id c, (id, c) ∈ bs ↔
        (lastLiteral? decBinding id is).map Literal.value = some c.binding ∧
          ((lastLiteral? decDescriptorSet id is).map Literal.value).getD 0 = c.group) ∧
      readBindings words' = .ok (bs.map fun b => (b.1, moves.apply b.2)) ∧
      (∀ c, c ∈ found ↔ c ∈ bs.map Prod.snd ∧ (moves.target? c).isSome) ∧
      (words'.length = words.length ∧
        ∀ p, words'[p]? ≠ words[p]? → IsPlaceLiteral is p) ∧
      ∃ found', patch words moves = (words', .ok found') ∧ ∀ c, c ∈ found' ↔ c ∈ found := by
  obtain ⟨is, his, rfl⟩ := collect_eq_ok_iff.1 hds
  obtain ⟨hnodup, hthird, hread⟩ := positions_collect his
  have hpositions : (positions order).Perm (positions (is.foldl collectOne [])) :=
    horder.flatMap_right _
  obtain ⟨hlength, hframe, -, hfound⟩ := patchAll_eq_ok h (hpositions.nodup_iff.2 hnodup)
    (fun q hq => (hthird q (hpositions.mem_iff.1 hq)).2)
    (fun d hd => hread d (horder.mem_iff.1 hd))
  obtain ⟨places, hall⟩ :=
    (patchAll_perm horder (hpositions.nodup_iff.2 hnodup)).1 ⟨found, h⟩
  have hpatch : patch words moves = (words', .ok places.eraseDups) := by
    rw [patch, hds]
    simp only [hall]
  obtain ⟨bs, hbs, hbs', hmoved⟩ := readBindings_patch hpatch
  have hplaces : ∀ c, c ∈ places.eraseDups ↔ c ∈ found := by
    intro c
    obtain ⟨-, -, -, hplaces⟩ :=
      patchAll_eq_ok hall hnodup (fun q hq => (hthird q hq).2) hread
    rw [List.mem_eraseDups, hplaces c, hfound c]
    simp only [horder.mem_iff]
  refine ⟨is, bs, his, hbs, ⟨pairwise_ids_readBindings hbs, fun id c =>
    mem_readBindings_iff his hbs⟩, hbs', fun c => ?_, ⟨hlength, fun p hp => ?_⟩, _, hpatch, hplaces⟩
  · rw [← hplaces, hmoved]
  · refine isPlaceLiteral_of_mem_positions (hpositions.mem_iff.1 ?_)
    exact Decidable.not_not.1 fun hq => hp (hframe p hq)

/-- A module that binds variable 5 in a set, first at 1 and then at another binding, and variable 6
without naming a set. -/
def redecorated (set five six : UInt32) : List UInt32 :=
  [0x07230203, 0, 0, 9, 0, 0x00040047, 5, 33, 1, 0x00040047, 5, 34, set, 0x00040047, 5, 33, five,
    0x00040047, 6, 33, six]

/-- Moves of both places, the second one to where the first one was. -/
def chain : Moves :=
  [(⟨0, 2⟩, ⟨1, 7⟩), (⟨0, 5⟩, ⟨0, 2⟩)]

/-- Of two bindings the last is written over, and a variable without a set is in set 0. -/
theorem patch_exact_redecorated :
    patchAll chain (redecorated 0 2 5)
        [⟨6, none, some ⟨20, 5⟩⟩, ⟨5, some ⟨12, 0⟩, some ⟨16, 2⟩⟩] =
      (redecorated 1 7 2, .ok [⟨0, 5⟩, ⟨0, 2⟩]) ∧
    readBindings (redecorated 1 7 2) = .ok [(5, ⟨1, 7⟩), (6, ⟨0, 2⟩)] ∧
    ∃ found, patch (redecorated 0 2 5) chain = (redecorated 1 7 2, .ok found) := by
  have hrun : patchAll chain (redecorated 0 2 5)
      [⟨6, none, some ⟨20, 5⟩⟩, ⟨5, some ⟨12, 0⟩, some ⟨16, 2⟩⟩] =
        (redecorated 1 7 2, .ok [⟨0, 5⟩, ⟨0, 2⟩]) := rfl
  have hcollect : collect (redecorated 0 2 5) =
      .ok [⟨5, some ⟨12, 0⟩, some ⟨16, 2⟩⟩, ⟨6, none, some ⟨20, 5⟩⟩] := by
    decide +kernel
  have hread : readBindings (redecorated 0 2 5) = .ok [(5, ⟨0, 2⟩), (6, ⟨0, 5⟩)] := by
    decide +kernel
  obtain ⟨_, bs, -, hbs, -, hbs', -, -, found, hpatch, -⟩ := patch_exact hcollect (.swap ..) hrun
  cases hread.symm.trans hbs
  exact ⟨hrun, hbs', found, hpatch⟩

end ShaderBind.Spirv
