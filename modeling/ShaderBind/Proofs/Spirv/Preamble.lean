import ShaderBind.Proofs.Outcome
import ShaderBind.Spirv.Decoration

/-!
# Reading a preamble again

When numbers are written over the third operands of instructions and nowhere else, the instructions
before the first function stay where they are, with the same opcodes and the same number of
operands. So the preamble of the new words is the old one with its operands read again
(`preamble_reread`), and the decorations collected from it are the old ones with their literals
read again (`collect_reread`).
-/

namespace ShaderBind.Spirv

/-! ## One instruction -/

/-- An instruction is a word with its length and opcode, and its operands. -/
theorem next?_eq_some_iff {position : Nat} {ws rest : List UInt32} {i : Instruction} :
    next? position ws = some (i, rest) ↔
      ∃ w, ws = w :: (i.operands ++ rest) ∧ (w >>> 16).toNat = i.operands.length + 1 ∧
        i.position = position ∧ i.opcode = (w &&& 0xFFFF).toNat := by
  constructor
  · intro h
    unfold next? at h
    split at h
    · cases h
    · rename_i w ws
      simp only at h
      split at h
      · cases h
      · rename_i hfit
        cases h
        refine ⟨w, by simp, ?_, rfl, rfl⟩
        simp only [List.length_take]
        omega
  · rintro ⟨w, rfl, hlength, rfl, hopcode⟩
    have hfit : ¬ (i.operands.length + 1 = 0 ∨
        (i.operands ++ rest).length + 1 < i.operands.length + 1) := by
      simp only [List.length_append]
      omega
    simp only [next?, hlength, if_neg hfit, Nat.add_sub_cancel, List.take_left, List.drop_left,
      ← hopcode]

/-- The instruction with the operands that stand at its place in `words`. -/
def Instruction.reread (words : List UInt32) (i : Instruction) : Instruction :=
  { i with operands := (words.drop (i.position + 1)).take i.operands.length }

/-- The instruction stands in `words`, at its position. -/
def Instruction.Within (words : List UInt32) (i : Instruction) : Prop :=
  i.stop ≤ words.length ∧ i.reread words = i

/-- An instruction that is read again has as many operands. -/
theorem Instruction.Within.length_reread {words words' : List UInt32} {i : Instruction}
    (h : i.Within words) (hlength : words'.length = words.length) :
    (i.reread words').operands.length = i.operands.length := by
  have hstop := h.1
  simp only [Instruction.stop] at hstop
  simp only [Instruction.reread, List.length_take, List.length_drop]
  omega

theorem Instruction.Within.stop_reread {words words' : List UInt32} {i : Instruction}
    (h : i.Within words) (hlength : words'.length = words.length) :
    (i.reread words').stop = i.stop := by
  rw [Instruction.stop, Instruction.stop, h.length_reread hlength]
  rfl

theorem Instruction.getElem?_reread (words : List UInt32) (i : Instruction) {k : Nat}
    (hk : k < i.operands.length) :
    (i.reread words).operands[k]? = words[i.position + 1 + k]? := by
  simp only [Instruction.reread, List.getElem?_take, if_pos hk, List.getElem?_drop]

/-- The operands of an instruction are words of its module. -/
theorem Instruction.Within.getElem?_operands {words : List UInt32} {i : Instruction}
    (h : i.Within words) {k : Nat} (hk : k < i.operands.length) :
    i.operands[k]? = words[i.position + 1 + k]? := by
  rw [← i.getElem?_reread words hk, h.2]

/-! ## The instructions before the first function -/

/-- The instructions of a preamble follow one another. -/
abbrev Consecutive (is : List Instruction) : Prop :=
  is.Pairwise fun i j => i.stop ≤ j.position

/-- Two instructions of a preamble do not overlap. -/
theorem Consecutive.apart {is : List Instruction} (h : Consecutive is) {i j : Instruction}
    (hi : i ∈ is) (hj : j ∈ is) : i = j ∨ i.stop ≤ j.position ∨ j.stop ≤ i.position := by
  induction h with
  | nil => cases hi
  | cons hfirst _ ih =>
    rcases List.mem_cons.1 hi with rfl | hi' <;> rcases List.mem_cons.1 hj with rfl | hj'
    · exact .inl rfl
    · exact .inr (.inl (hfirst j hj'))
    · exact .inr (.inr (hfirst i hi'))
    · exact ih hi' hj'

/-- An instruction is read from the module at its position. -/
theorem next?_drop {words rest : List UInt32} {position : Nat} {i : Instruction}
    (h : next? position (words.drop position) = some (i, rest)) :
    i.Within words ∧ i.position = position ∧ rest = words.drop i.stop := by
  obtain ⟨w, hws, -, hposition, -⟩ := next?_eq_some_iff.1 h
  have hbehind : words.drop (position + 1) = i.operands ++ rest := by
    rw [← List.drop_drop, hws, List.drop_one, List.tail_cons]
  have hlength := congrArg List.length hws
  simp only [List.length_drop, List.length_cons, List.length_append] at hlength
  refine ⟨⟨?_, ?_⟩, hposition, ?_⟩
  · simp only [Instruction.stop]
    omega
  · rw [Instruction.reread, hposition, hbehind, List.take_left]
    cases i
    cases hposition
    rfl
  · rw [Instruction.stop, hposition, ← List.drop_drop, hbehind, List.drop_left]

/-- A preamble ends with the words or at a function, or goes on with an instruction. -/
theorem preambleFrom_cons {position : Nat} {ws : List UInt32} {is : List Instruction}
    (h : preambleFrom position ws = .ok is) :
    (is = [] ∧ (ws = [] ∨ ∃ i rest, next? position ws = some (i, rest) ∧ i.opcode = opFunction)) ∨
      ∃ i rest is', next? position ws = some (i, rest) ∧ i.opcode ≠ opFunction ∧
        preambleFrom i.stop rest = .ok is' ∧ is = i :: is' := by
  unfold preambleFrom at h
  split at h
  next hempty =>
    cases h
    exact .inl ⟨rfl, .inl (by simpa using hempty)⟩
  next =>
    split at h
    · cases h
    next i rest hnext =>
      split at h
      next hopcode =>
        cases h
        exact .inl ⟨rfl, .inr ⟨i, rest, hnext, hopcode⟩⟩
      next hopcode =>
        obtain ⟨is', hrest, heq⟩ := bind_eq_ok_iff.1 h
        exact .inr ⟨i, rest, is', hnext, hopcode, hrest, (pure_eq_ok_iff.1 heq).symm⟩

/-- The first function ends the preamble. -/
theorem preambleFrom_of_function {position : Nat} {ws rest : List UInt32} {i : Instruction}
    (hnext : next? position ws = some (i, rest)) (hopcode : i.opcode = opFunction) :
    preambleFrom position ws = .ok [] := by
  unfold preambleFrom
  split
  · rfl
  · split
    next hnone => simp [hnext] at hnone
    next hsome =>
      simp only [hnext, Option.some.injEq, Prod.mk.injEq] at hsome
      rw [if_pos (hsome.1 ▸ hopcode)]

/-- An instruction that is no function is one of the preamble. -/
theorem preambleFrom_of_next {position : Nat} {ws rest : List UInt32} {i : Instruction}
    {is : List Instruction} (hnext : next? position ws = some (i, rest))
    (hopcode : i.opcode ≠ opFunction) (hrest : preambleFrom i.stop rest = .ok is) :
    preambleFrom position ws = .ok (i :: is) := by
  unfold preambleFrom
  split
  next hempty =>
    rw [List.isEmpty_iff.1 hempty] at hnext
    cases hnext
  · split
    next hnone => simp [hnext] at hnone
    next hsome =>
      simp only [hnext, Option.some.injEq, Prod.mk.injEq] at hsome
      obtain ⟨rfl, rfl⟩ := hsome
      rw [if_neg hopcode, hrest]
      rfl

/-- The instructions of a preamble stand one after the other in the module. -/
theorem within_of_preambleFrom {words : List UInt32} {position : Nat} {is : List Instruction}
    (h : preambleFrom position (words.drop position) = .ok is) :
    Consecutive is ∧ ∀ i ∈ is, position ≤ i.position ∧ i.Within words := by
  induction is generalizing position with
  | nil => simp
  | cons i is ih =>
    obtain ⟨hnil, -⟩ | ⟨i', rest, is', hnext, -, hrest, heq⟩ := preambleFrom_cons h
    · cases hnil
    · cases heq
      obtain ⟨hwithin, hposition, rfl⟩ := next?_drop hnext
      obtain ⟨hpairs, hall⟩ := ih hrest
      refine ⟨.cons (fun j hj => (hall j hj).1) hpairs, ?_⟩
      simp only [List.mem_cons, forall_eq_or_imp]
      refine ⟨⟨Nat.le_of_eq hposition.symm, hwithin⟩, fun j hj => ⟨?_, (hall j hj).2⟩⟩
      have := (hall j hj).1
      simp only [Instruction.stop] at this
      omega

/-- The word at `p` is the third operand of one of the instructions. -/
def IsThirdOperand (is : List Instruction) (p : Nat) : Prop :=
  ∃ i ∈ is, 3 ≤ i.operands.length ∧ p = i.position + 3

/-- Two sequences of words that differ, from `position` on, at most in third operands. -/
structure AgreeFrom (position : Nat) (is : List Instruction) (words words' : List UInt32) :
    Prop where
  length_eq : words'.length = words.length
  getElem?_eq : ∀ p, position ≤ p → ¬ IsThirdOperand is p → words'[p]? = words[p]?

/-- The first word of an instruction and the words behind it are read as they were, but for the
operands. -/
theorem next?_reread {words words' rest : List UInt32} {position : Nat}
    {i : Instruction} (hlength : words'.length = words.length)
    (hfirst : words'[position]? = words[position]?)
    (hnext : next? position (words.drop position) = some (i, rest)) :
    next? position (words'.drop position) = some (i.reread words', words'.drop i.stop) := by
  obtain ⟨hwithin, hposition, -⟩ := next?_drop hnext
  obtain ⟨w, hws, hsize, -, hopcode⟩ := next?_eq_some_iff.1 hnext
  have hw : words'[position]? = some w := by
    rw [hfirst, ← List.head?_drop, hws, List.head?_cons]
  have hcut : words'.drop position = w :: words'.drop (position + 1) := by
    obtain ⟨hlt, hget⟩ := List.getElem?_eq_some_iff.1 hw
    rw [List.drop_eq_getElem_cons hlt, hget]
  refine next?_eq_some_iff.2 ⟨w, ?_, ?_, hposition, hopcode⟩
  · simp only [hcut, Instruction.reread, Instruction.stop, hposition,
      ← List.drop_drop (i := i.operands.length), List.take_append_drop]
  · rw [hsize, hwithin.length_reread hlength]

/-- A number written over a third operand leaves the instructions where they were. -/
theorem preambleFrom_reread {words words' : List UInt32} {position : Nat} {is : List Instruction}
    (h : preambleFrom position (words.drop position) = .ok is)
    (hagree : AgreeFrom position is words words') :
    preambleFrom position (words'.drop position) = .ok (is.map (·.reread words')) := by
  induction is generalizing position with
  | nil =>
    have hfirst : words'[position]? = words[position]? :=
      hagree.getElem?_eq position (Nat.le_refl _) (by simp [IsThirdOperand])
    obtain ⟨-, hempty | ⟨i, rest, hnext, hopcode⟩⟩ | ⟨_, _, _, _, _, _, hcons⟩ :=
      preambleFrom_cons h
    · have : words'.drop position = [] := by
        rw [List.drop_eq_nil_iff] at hempty ⊢
        rw [hagree.length_eq]
        exact hempty
      rw [this]
      unfold preambleFrom
      rfl
    · exact preambleFrom_of_function (next?_reread hagree.length_eq hfirst hnext) hopcode
    · cases hcons
  | cons i is ih =>
    obtain ⟨hpairs, hall⟩ := within_of_preambleFrom h
    obtain ⟨hnil, -⟩ | ⟨_, rest, _, hnext, hopcode, hrest, heq⟩ := preambleFrom_cons h
    · cases hnil
    cases heq
    obtain ⟨hwithin, hposition, rfl⟩ := next?_drop hnext
    have hfirst : words'[position]? = words[position]? := by
      refine hagree.getElem?_eq position (Nat.le_refl _) ?_
      rintro ⟨j, hj, -, hp⟩
      have := (hall j hj).1
      omega
    have htail : AgreeFrom i.stop is words words' := by
      refine ⟨hagree.length_eq, fun p hp hnot => hagree.getElem?_eq p ?_ ?_⟩
      · simp only [Instruction.stop] at hp
        omega
      · rintro ⟨j, hj, hthree, hthird⟩
        rcases List.mem_cons.1 hj with rfl | hj
        · simp only [Instruction.stop] at hp
          omega
        · exact hnot ⟨j, hj, hthree, hthird⟩
    refine preambleFrom_of_next (next?_reread hagree.length_eq hfirst hnext) hopcode ?_
    rw [hwithin.stop_reread hagree.length_eq]
    exact ih hrest htail

/-- A preamble is read behind a header with the magic number. -/
theorem preamble_eq_ok_iff {words : List UInt32} {is : List Instruction} :
    preamble words = .ok is ↔ headerSize ≤ words.length ∧ words.head? = some magic ∧
      preambleFrom headerSize (words.drop headerSize) = .ok is := by
  unfold preamble
  split
  next hbad =>
    refine ⟨fun h => (by cases h), fun ⟨hsize, hmagic, _⟩ => ?_⟩
    exact (hbad.elim (by omega) fun hhead => hhead hmagic).elim
  next hgood =>
    simp only [not_or, Nat.not_lt, Decidable.not_not] at hgood
    simp only [hgood, true_and]

theorem AgreeFrom.rfl {position : Nat} {is : List Instruction} {words : List UInt32} :
    AgreeFrom position is words words :=
  ⟨Eq.refl _, fun _ _ _ => Eq.refl _⟩

/-- Words that agree where lengths and opcodes stand have the same instructions. -/
theorem preamble_reread {words words' : List UInt32} {is : List Instruction}
    (h : preamble words = .ok is) (hagree : AgreeFrom 0 is words words') :
    preamble words' = .ok (is.map (·.reread words')) := by
  obtain ⟨hsize, hmagic, hfrom⟩ := preamble_eq_ok_iff.1 h
  have hhead : words'.head? = words.head? := by
    rw [List.head?_eq_getElem?, List.head?_eq_getElem?]
    refine hagree.getElem?_eq 0 (Nat.le_refl _) ?_
    rintro ⟨i, -, -, hp⟩
    omega
  refine preamble_eq_ok_iff.2 ⟨hagree.length_eq ▸ hsize, hhead ▸ hmagic, ?_⟩
  exact preambleFrom_reread hfrom
    ⟨hagree.length_eq, fun p _ => hagree.getElem?_eq p (Nat.zero_le p)⟩

/-! ## Decorations -/

/-- The literal with the number that stands at its place in `words`. -/
def Literal.reread (words : List UInt32) (l : Literal) : Literal :=
  ⟨l.position, words[l.position]?.getD 0⟩

/-- The decorations with their numbers read again in `words`. -/
def Decorations.reread (words : List UInt32) (d : Decorations) : Decorations :=
  { d with set := d.set.map (·.reread words), binding := d.binding.map (·.reread words) }

/-- A change that commutes with reading again does so when it is made in a list. -/
theorem update_reread {words : List UInt32} {id : UInt32} {f g : Decorations → Decorations}
    (hf : ∀ d, (f d).reread words = g (d.reread words)) (ds : List Decorations) :
    update id g (ds.map (·.reread words)) = (update id f ds).map (·.reread words) := by
  induction ds with
  | nil => exact congrArg (fun d => [d]) (hf { id }).symm
  | cons d ds ih =>
    simp only [update, List.map_cons]
    rw [show (d.reread words).id = d.id from rfl]
    split
    · rw [List.map_cons, hf]
    · split
      · rw [List.map_cons, List.map_cons, hf]
        rfl
      · rw [List.map_cons, ih]

theorem collectOne_of_short {i : Instruction} (h : i.operands.length < 3)
    (ds : List Decorations) : collectOne ds i = ds := by
  unfold collectOne
  split
  · split
    next hops =>
      simp only [hops, List.length_cons] at h
      omega
    next => rfl
  · rfl

theorem collectOne_of_operands {i : Instruction} {id kind value : UInt32} {tl : List UInt32}
    (h : i.operands = id :: kind :: value :: tl) (ds : List Decorations) :
    collectOne ds i =
      if i.opcode = opDecorate ∧ kind = decDescriptorSet then
        update id (fun d => { d with set := some ⟨i.position + 3, value⟩ }) ds
      else if i.opcode = opDecorate ∧ kind = decBinding then
        update id (fun d => { d with binding := some ⟨i.position + 3, value⟩ }) ds
      else ds := by
  unfold collectOne
  by_cases hopcode : i.opcode = opDecorate
  · simp only [hopcode, h, if_true, true_and]
  · simp only [hopcode, if_false, false_and]

/-- Where only the third operand can have changed, the first two are read as they were. -/
theorem Instruction.Within.operands_reread {words words' : List UInt32} {i : Instruction}
    (h : i.Within words) (hlength : words'.length = words.length)
    (hkept : ∀ k < 2, words'[i.position + 1 + k]? = words[i.position + 1 + k]?)
    {id kind value : UInt32} {tl : List UInt32} (hops : i.operands = id :: kind :: value :: tl) :
    ∃ tl', (i.reread words').operands = id :: kind :: words'[i.position + 3]?.getD 0 :: tl' := by
  have hsize := h.length_reread hlength
  have hget : ∀ k < 3, (i.reread words').operands[k]? = words'[i.position + 1 + k]? := by
    intro k hk
    refine i.getElem?_reread words' ?_
    simp only [hops, List.length_cons]
    omega
  have hfirst : ∀ k < 2, (i.reread words').operands[k]? = i.operands[k]? := by
    intro k hk
    rw [hget k (by omega), hkept k hk, h.getElem?_operands]
    simp only [hops, List.length_cons]
    omega
  match hread : (i.reread words').operands, hsize with
  | [], hsize | [_], hsize | [_, _], hsize => simp [hops] at hsize
  | id' :: kind' :: value' :: tl', _ =>
    have hid := hfirst 0 (by omega)
    have hkind := hfirst 1 (by omega)
    have hvalue := hget 2 (by omega)
    simp only [hread, hops, List.getElem?_cons_zero, List.getElem?_cons_succ,
      Option.some.injEq] at hid hkind hvalue
    refine ⟨tl', ?_⟩
    rw [hid, hkind, ← hvalue, Option.getD_some]

/-- Reading again commutes with collecting, as long as the ids and the kinds of the decorations are
the same. -/
theorem collectOne_reread {words words' : List UInt32} {i : Instruction} (h : i.Within words)
    (hlength : words'.length = words.length)
    (hkept : ∀ k < 2, words'[i.position + 1 + k]? = words[i.position + 1 + k]?)
    (ds : List Decorations) :
    collectOne (ds.map (·.reread words')) (i.reread words') =
      (collectOne ds i).map (·.reread words') := by
  match hops : i.operands with
  | [] | [_] | [_, _] =>
    have hshort : i.operands.length < 3 := by simp [hops]
    rw [collectOne_of_short hshort, collectOne_of_short]
    rwa [h.length_reread hlength]
  | id :: kind :: value :: tl =>
    obtain ⟨tl', hops'⟩ := h.operands_reread hlength hkept hops
    rw [collectOne_of_operands hops, collectOne_of_operands hops']
    simp only [apply_ite (List.map _)]
    congr 1
    · refine update_reread ?_ ds
      exact fun _ => rfl
    · congr 1
      refine update_reread ?_ ds
      exact fun _ => rfl

/-- Decorations are collected alike from words that agree in ids and kinds. -/
theorem foldl_collectOne_reread {words words' : List UInt32}
    (hlength : words'.length = words.length) (is : List Instruction)
    (h : ∀ i ∈ is, i.Within words ∧
      ∀ k < 2, words'[i.position + 1 + k]? = words[i.position + 1 + k]?)
    (ds : List Decorations) :
    (is.map (·.reread words')).foldl collectOne (ds.map (·.reread words')) =
      (is.foldl collectOne ds).map (·.reread words') := by
  induction is generalizing ds with
  | nil => rfl
  | cons i is ih =>
    obtain ⟨⟨hwithin, hkept⟩, hrest⟩ := List.forall_mem_cons.1 h
    simp only [List.map_cons, List.foldl_cons]
    rw [collectOne_reread hwithin hlength hkept, ih hrest]

/-- Decorations are collected from the preamble. -/
theorem collect_eq_ok_iff {words : List UInt32} {ds : List Decorations} :
    collect words = .ok ds ↔ ∃ is, preamble words = .ok is ∧ ds = is.foldl collectOne [] := by
  simp only [collect, bind_eq_ok_iff, pure_eq_ok_iff, @eq_comm _ ds]

/-- After numbers were written over third operands, the decorations are the old ones with their
numbers read again. -/
theorem collect_reread {words words' : List UInt32} {is : List Instruction}
    (h : preamble words = .ok is) (hagree : AgreeFrom 0 is words words') :
    collect words' = .ok ((is.foldl collectOne []).map (·.reread words')) := by
  obtain ⟨hpairs, hall⟩ := within_of_preambleFrom (preamble_eq_ok_iff.1 h).2.2
  refine collect_eq_ok_iff.2 ⟨_, preamble_reread h hagree, ?_⟩
  refine (foldl_collectOne_reread hagree.length_eq is (fun i hi => ⟨(hall i hi).2, ?_⟩) []).symm
  -- neither operand is the third one of this or another instruction
  intro k hk
  refine hagree.getElem?_eq _ (Nat.zero_le _) ?_
  rintro ⟨j, hj, hthree, hp⟩
  have hapart := hpairs.apart hi hj
  simp only [Instruction.stop] at hapart
  rcases hapart with rfl | hstop | hstop <;> omega

end ShaderBind.Spirv
