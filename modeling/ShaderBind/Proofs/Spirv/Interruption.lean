import ShaderBind.Proofs.Spirv.Exactness

/-!
# A patch that fails half way

A patch of words that cannot be read fails before it writes anything. Behind that it fails at the
first variable that it visits and cannot move, one that is in set 0 without saying so and is to go
to another set (`verdict_eq_error_iff`). By then the variables before it have been moved, and the
binding of the variable itself has been written (`patchAll_eq_error_iff`), so that the words are a
mixture that depends on the order of the visits: some variables at their new places, one at a place
that is neither its old nor its new one, the rest where they were (`Interrupted`). Only if all those
writes put down what was there already are the words as before (`patch_interrupted`).
-/

namespace ShaderBind.Spirv

variable {moves : Moves} {words words' : List UInt32}

/-! ## Writes that change nothing -/

theorem writeAll_eq_self {writes : List (Nat × UInt32)}
    (h : ∀ w ∈ writes, words[w.1]? = some w.2) : writeAll words writes = words := by
  induction writes with
  | nil => rfl
  | cons w writes ih =>
    obtain ⟨hw, hrest⟩ := List.forall_mem_cons.1 h
    obtain ⟨hlt, hvalue⟩ := List.getElem?_eq_some_iff.1 hw
    have hset : words.set w.1 w.2 = words := by
      rw [← hvalue]
      exact List.set_getElem_self hlt
    change writeAll (words.set w.1 w.2) writes = words
    rw [hset, ih hrest]

/-- A variable that is to be moved gets both numbers of its target, where it has a word for them. -/
theorem mem_writes_iff {d : Decorations} {w : Nat × UInt32} :
    w ∈ d.writes moves ↔ ∃ target, d.place?.bind moves.target? = some target ∧
      ((∃ b, d.binding = some b ∧ w = (b.position, target.binding)) ∨
        ∃ s, d.set = some s ∧ w = (s.position, target.group)) := by
  unfold Decorations.writes
  cases d.place?.bind moves.target? with
  | none => simp
  | some target => simp [eq_comm]

theorem Literal.getElem?_of_reread {l : Literal} (h : l.reread words = l)
    (hlt : l.position < words.length) : words[l.position]? = some l.value := by
  have hvalue : words[l.position]?.getD 0 = l.value := congrArg Literal.value h
  rw [List.getElem?_eq_getElem hlt, Option.getD_some] at hvalue
  rw [List.getElem?_eq_getElem hlt, hvalue]

/-- The numbers of a variable are those that stand in the words. -/
theorem Decorations.getElem?_of_reread {d : Decorations} (h : d.reread words = d)
    (hin : ∀ q ∈ d.positions, q < words.length) :
    (∀ b, d.binding = some b → words[b.position]? = some b.value) ∧
      ∀ s, d.set = some s → words[s.position]? = some s.value := by
  constructor
  · intro b hb
    refine Literal.getElem?_of_reread ?_ (hin _ (by simp [Decorations.positions, hb]))
    have hbinding := congrArg Decorations.binding h
    simp only [Decorations.reread, hb, Option.map_some] at hbinding
    exact Option.some.inj hbinding
  · intro s hs
    refine Literal.getElem?_of_reread ?_ (hin _ (by simp [Decorations.positions, hs]))
    have hset := congrArg Decorations.set h
    simp only [Decorations.reread, hs, Option.map_some] at hset
    exact Option.some.inj hset

/-- A variable that a patch leaves at its place gets the numbers that it has. -/
theorem writes_of_stays {d : Decorations} (hread : d.reread words = d)
    (hin : ∀ q ∈ d.positions, q < words.length) (hstays : d.place?.map moves.apply = d.place?) :
    ∀ w ∈ d.writes moves, words[w.1]? = some w.2 := by
  intro w hw
  obtain ⟨target, hmove, hw⟩ := mem_writes_iff.1 hw
  obtain ⟨place, hplace, htarget⟩ := Option.bind_eq_some_iff.1 hmove
  obtain ⟨hbinding, hset⟩ := Decorations.getElem?_of_reread hread hin
  have hsame : target = place := by
    rw [hplace, Option.map_some, Moves.apply, htarget, Option.getD_some] at hstays
    exact Option.some.inj hstays
  subst hsame
  rcases hw with ⟨b, hb, rfl⟩ | ⟨s, hs, rfl⟩
  · rw [hbinding b hb]
    rw [Decorations.place?, hb] at hplace
    cases hplace
    rfl
  · rw [hset s hs]
    obtain ⟨b, -, hb⟩ := Option.map_eq_some_iff.1 hplace
    rw [← hb, hs]
    rfl

/-! ## The variable that cannot be moved -/

/-- A variable that cannot be moved: it is in set 0 without saying so, and is to go elsewhere. -/
structure Stuck (moves : Moves) (d : Decorations) (place target : Coord) : Prop where
  place_eq : d.place? = some place
  target_eq : moves.target? place = some target
  set_eq : d.set = none
  group_ne : target.group ≠ 0

/-- A variable that cannot be moved is told of with the set that it was to go to. -/
theorem verdict_eq_error_iff {d : Decorations} {e : SpirvFault} :
    d.verdict moves = .error e ↔
      ∃ place target, Stuck moves d place target ∧ e = .noSetDecoration d.id target.group := by
  constructor
  · intro h
    unfold Decorations.verdict at h
    split at h
    · cases h
    next target hmove =>
      obtain ⟨place, hplace, htarget⟩ := Option.bind_eq_some_iff.1 hmove
      split at h
      · cases h
      next hstuck =>
        cases h
        rw [not_or, Bool.not_eq_true, Option.isSome_eq_false_iff, Option.isNone_iff_eq_none]
          at hstuck
        exact ⟨place, target, ⟨hplace, htarget, hstuck.1, hstuck.2⟩, rfl⟩
  · rintro ⟨place, target, hd, rfl⟩
    simp [Decorations.verdict, hd.place_eq, hd.target_eq, hd.set_eq, hd.group_ne]

/-- A run fails at its first variable, behind the writes for it, or behind those at a later one. -/
theorem patchAll_cons_eq_error_iff {c : Decorations} {ds : List Decorations} {e : SpirvFault} :
    patchAll moves words (c :: ds) = (words', .error e) ↔
      c.verdict moves = .error e ∧ words' = writeAll words (c.writes moves) ∨
        (∃ found, c.verdict moves = .ok found) ∧
          patchAll moves (writeAll words (c.writes moves)) ds = (words', .error e) := by
  simp only [patchAll, patchOne_eq]
  cases c.verdict moves with
  | error e' => simp [and_comm, eq_comm]
  | ok found =>
    rcases hrest : patchAll moves (writeAll words (c.writes moves)) ds with ⟨last, e' | places⟩ <;>
      simp [hrest]

/-- A run fails at the first variable that cannot be moved, and has then made the writes of all
variables up to this one. -/
theorem patchAll_eq_error_iff {ds : List Decorations} {e : SpirvFault} :
    patchAll moves words ds = (words', .error e) ↔
      ∃ before d after, ds = before ++ d :: after ∧
        (∀ c ∈ before, ∃ found, c.verdict moves = .ok found) ∧ d.verdict moves = .error e ∧
        words' = writeAll words ((before ++ [d]).flatMap (Decorations.writes moves)) := by
  induction ds generalizing words with
  | nil =>
    refine ⟨fun h => (by cases h), ?_⟩
    rintro ⟨before, d, after, hds, -⟩
    simp at hds
  | cons c ds ih =>
    rw [patchAll_cons_eq_error_iff, ih]
    constructor
    · rintro (⟨hc, rfl⟩ | ⟨hc, before, d, after, rfl, hbefore, hd, rfl⟩)
      · exact ⟨[], c, ds, rfl, by simp, hc, by simp⟩
      · refine ⟨c :: before, d, after, rfl, List.forall_mem_cons.2 ⟨hc, hbefore⟩, hd, ?_⟩
        rw [List.cons_append, List.flatMap_cons, writeAll_append]
    · rintro ⟨_ | ⟨_, before⟩, d, after, hds, hbefore, hd, rfl⟩
      · cases hds
        exact .inl ⟨hd, by simp⟩
      · cases hds
        obtain ⟨hc, hbefore⟩ := List.forall_mem_cons.1 hbefore
        refine .inr ⟨hc, before, d, after, rfl, hbefore, hd, ?_⟩
        rw [List.cons_append, List.flatMap_cons, writeAll_append]

/-! ## The words that are left -/

/-- The variables have their numbers in words of their own, as they are read there. -/
structure Laid (words : List UInt32) (ds : List Decorations) : Prop where
  nodup : (positions ds).Nodup
  inside : ∀ q ∈ positions ds, q < words.length
  read : ∀ d ∈ ds, d.reread words = d

theorem laid_of_collect {ds order : List Decorations} (hds : collect words = .ok ds)
    (horder : order.Perm ds) : Laid words order := by
  obtain ⟨is, his, rfl⟩ := collect_eq_ok_iff.1 hds
  obtain ⟨hnodup, hthird, hread⟩ := positions_collect his
  have hpositions : (positions order).Perm (positions (is.foldl collectOne [])) :=
    horder.flatMap_right _
  exact ⟨hpositions.nodup_iff.2 hnodup, fun q hq => (hthird q (hpositions.mem_iff.1 hq)).2,
    fun d hd => hread d (horder.mem_iff.1 hd)⟩

theorem positions_append (ds es : List Decorations) :
    positions (ds ++ es) = positions ds ++ positions es :=
  List.flatMap_append

theorem mem_positions {d : Decorations} {ds : List Decorations} (hd : d ∈ ds) {q : Nat}
    (hq : q ∈ d.positions) : q ∈ positions ds :=
  List.mem_flatMap.2 ⟨d, hd, hq⟩

/-- The words after the writes for some variables. -/
def written (moves : Moves) (words : List UInt32) (ds : List Decorations) : List UInt32 :=
  writeAll words (ds.flatMap (Decorations.writes moves))

theorem written_append (ds es : List Decorations) :
    written moves words (ds ++ es) = written moves (written moves words ds) es := by
  rw [written, List.flatMap_append, writeAll_append]
  rfl

/-- Nothing is written but the numbers of the variables. -/
theorem getElem?_written {ds : List Decorations} {q : Nat} (hq : q ∉ positions ds) :
    (written moves words ds)[q]? = words[q]? := by
  have hwrites : ∀ w ∈ ds.flatMap (Decorations.writes moves), w.1 ≠ q := by
    rintro w hw rfl
    obtain ⟨d, hd, hw⟩ := List.mem_flatMap.1 hw
    exact hq (mem_positions hd (mem_positions_of_mem_writes hw))
  unfold written
  generalize ds.flatMap (Decorations.writes moves) = writes at hwrites
  induction writes generalizing words with
  | nil => rfl
  | cons w writes ih =>
    obtain ⟨hw, hrest⟩ := List.forall_mem_cons.1 hwrites
    change (writeAll (words.set w.1 w.2) writes)[q]? = _
    rw [ih hrest, List.getElem?_set_ne hw]

theorem length_written (ds : List Decorations) :
    (written moves words ds).length = words.length := by
  unfold written
  generalize ds.flatMap (Decorations.writes moves) = writes
  induction writes generalizing words with
  | nil => rfl
  | cons w writes ih =>
    change (writeAll (words.set w.1 w.2) writes).length = _
    rw [ih, List.length_set]

namespace Laid

variable {ds es : List Decorations} {c d : Decorations}

theorem left (h : Laid words (ds ++ es)) : Laid words ds where
  nodup := (List.nodup_append.1 (positions_append ds es ▸ h.nodup)).1
  inside q hq := h.inside q (by rw [positions_append]; exact List.mem_append_left _ hq)
  read d hd := h.read d (List.mem_append_left _ hd)

theorem apart (h : Laid words (ds ++ es)) {q : Nat} (hd : q ∈ positions ds)
    (he : q ∈ positions es) : False :=
  (List.nodup_append.1 (positions_append ds es ▸ h.nodup)).2.2 q hd q he rfl

/-- The variables that were not visited are read as before. -/
theorem reread_of_mem_right (h : Laid words (ds ++ es)) (hc : c ∈ es) :
    c.reread (written moves words ds) = c := by
  have hsame : c.reread (written moves words ds) = c.reread words :=
    Decorations.reread_congr fun q hq => getElem?_written fun hd => h.apart hd (mem_positions hc hq)
  rw [hsame, h.read c (List.mem_append_right _ hc)]

/-- The variables that were visited are where they are moved to, if they can be, whatever is visited
then. -/
theorem place?_of_mem_left (h : Laid words (ds ++ es))
    (hmovable : ∀ c ∈ ds, ∃ found, c.verdict moves = .ok found) (hc : c ∈ ds) :
    (c.reread (written moves words (ds ++ es))).place? = c.place?.map moves.apply := by
  have hsame : c.reread (written moves words (ds ++ es)) = c.reread (written moves words ds) := by
    rw [written_append]
    exact Decorations.reread_congr fun q hq =>
      getElem?_written fun he => h.apart (mem_positions hc hq) he
  obtain ⟨found, hrun⟩ := exists_patchAll_eq_ok_iff.2
    (And.intro (Eq.refl (writeAll words (ds.flatMap (Decorations.writes moves)))) hmovable)
  obtain ⟨-, -, hmoved, -⟩ := patchAll_eq_ok hrun h.left.nodup h.left.inside h.left.read
  rw [hsame]
  exact hmoved c hc

end Laid

namespace Stuck

variable {before : List Decorations} {d : Decorations} {place target : Coord}

/-- The one number of the variable, and what is written over it. -/
theorem exists_binding (hd : Stuck moves d place target) :
    ∃ b, d.binding = some b ∧ b.value = place.binding ∧
      d.writes moves = [(b.position, target.binding)] := by
  obtain ⟨b, hb, hplace⟩ := Option.map_eq_some_iff.1 hd.place_eq
  refine ⟨b, hb, congrArg Coord.binding hplace, ?_⟩
  simp only [Decorations.writes, hd.place_eq, Option.bind_some, hd.target_eq, hb, hd.set_eq,
    Option.toList_some, Option.toList_none, List.map_cons, List.map_nil, List.append_nil]

/-- The variable is left with its new binding in its old set. -/
theorem place?_written (hd : Stuck moves d place target) (h : Laid words (before ++ [d])) :
    (d.reread (written moves words (before ++ [d]))).place? = some ⟨0, target.binding⟩ := by
  obtain ⟨b, hb, -, hwrites⟩ := hd.exists_binding
  have hin : b.position < (written moves words before).length := by
    rw [length_written]
    exact h.inside _ (mem_positions (List.mem_append_right _ (List.mem_singleton_self d))
      (by simp [Decorations.positions, hb]))
  have hnew : (written moves words (before ++ [d]))[b.position]? = some target.binding := by
    rw [written_append, written, List.flatMap_singleton, hwrites]
    exact List.getElem?_set_self hin
  rw [Decorations.place?_reread, hb, hd.set_eq, Option.map_some, hnew]
  rfl

/-- The words are as before exactly if nothing was moved and the binding is the same. -/
theorem written_eq_self_iff (hd : Stuck moves d place target) (h : Laid words (before ++ [d]))
    (hbefore : ∀ c ∈ before, ∃ found, c.verdict moves = .ok found) :
    written moves words (before ++ [d]) = words ↔
      (∀ c ∈ before, c.place?.map moves.apply = c.place?) ∧ target.binding = place.binding := by
  constructor
  · intro hsame
    refine ⟨fun c hc => ?_, ?_⟩
    · rw [← h.place?_of_mem_left hbefore hc, hsame, h.read c (List.mem_append_left _ hc)]
    · have hhalf := hd.place?_written h
      rw [hsame, h.read d (by simp), hd.place_eq] at hhalf
      rw [Option.some.inj hhalf]
  · rintro ⟨hstays, hbinding⟩
    refine writeAll_eq_self fun w hw => ?_
    obtain ⟨c, hc, hcw⟩ := List.mem_flatMap.1 hw
    have hinside : ∀ q ∈ c.positions, q < words.length := fun q hq =>
      h.inside q (mem_positions hc hq)
    rcases List.mem_append.1 hc with hbef | hlast
    · exact writes_of_stays (h.read c hc) hinside (hstays c hbef) w hcw
    · obtain rfl := List.mem_singleton.1 hlast
      obtain ⟨b, hb, hvalue, hwrites⟩ := hd.exists_binding
      rw [hwrites, List.mem_singleton] at hcw
      rw [hcw, (Decorations.getElem?_of_reread (h.read c hc) hinside).1 b hb, hvalue, hbinding]

end Stuck

/-- A run that was interrupted: the variables of `before` were moved, the binding of `d` was written
although its set could not be, and those of `after` were not visited. -/
structure Interrupted (moves : Moves) (words words' : List UInt32) (before : List Decorations)
    (d : Decorations) (after : List Decorations) (place target : Coord) : Prop where
  stuck : Stuck moves d place target
  moved : ∀ c ∈ before, (c.reread words').place? = c.place?.map moves.apply
  half : (d.reread words').place? = some ⟨0, target.binding⟩
  kept : ∀ c ∈ after, (c.reread words').place? = c.place?
  /-- The words are as before exactly if nothing was moved and the binding is the same. -/
  eq_iff : words' = words ↔
    (∀ c ∈ before, c.place?.map moves.apply = c.place?) ∧ target.binding = place.binding

theorem interrupted_of_stuck {before after : List Decorations} {d : Decorations}
    {place target : Coord} (h : Laid words (before ++ d :: after))
    (hbefore : ∀ c ∈ before, ∃ found, c.verdict moves = .ok found)
    (hd : Stuck moves d place target) :
    Interrupted moves words (written moves words (before ++ [d])) before d after place target := by
  rw [List.append_cons] at h
  exact
    { stuck := hd
      moved := fun c hc => h.left.place?_of_mem_left hbefore hc
      half := hd.place?_written h.left
      kept := fun c hc => by rw [h.reread_of_mem_right hc]
      eq_iff := hd.written_eq_self_iff h.left hbefore }

/-- Numbers written for variables of a module change only numbers of places, and the variables are
found again with the numbers that then stand there. -/
theorem collect_written {is : List Instruction} {ds : List Decorations}
    (his : preamble words = .ok is) (hds : ∀ d ∈ ds, d ∈ is.foldl collectOne []) :
    (∀ p, (written moves words ds)[p]? ≠ words[p]? → IsPlaceLiteral is p) ∧
      collect (written moves words ds) =
        .ok ((is.foldl collectOne []).map (·.reread (written moves words ds))) := by
  have hframe : ∀ p, p ∉ positions (is.foldl collectOne []) →
      (written moves words ds)[p]? = words[p]? := by
    intro p hp
    refine getElem?_written fun hq => hp ?_
    obtain ⟨d, hd, hq⟩ := List.mem_flatMap.1 hq
    exact mem_positions (hds d hd) hq
  obtain ⟨-, hthird, -⟩ := positions_collect his
  constructor
  · intro p hp
    exact isPlaceLiteral_of_mem_positions (Decidable.not_not.1 fun hq => hp (hframe p hq))
  · exact collect_reread his
      ⟨length_written ds, fun q _ hq => hframe q fun hq' => hq (hthird q hq').1⟩

/-! ## What a failed patch leaves -/

/-- A patch fails if the module cannot be read, before anything is written, or at a variable. -/
theorem patch_eq_error_iff {e : SpirvFault} :
    patch words moves = (words', .error e) ↔ collect words = .error e ∧ words' = words ∨
      ∃ ds, collect words = .ok ds ∧ patchAll moves words ds = (words', .error e) := by
  unfold patch
  cases collect words with
  | error e' => simp [and_comm, eq_comm]
  | ok ds =>
    rcases hrun : patchAll moves words ds with ⟨last, e' | places⟩ <;> simp [hrun]

/-- A patch of a module that cannot be read leaves its words alone. Otherwise, in whatever order the
variables are visited, it fails exactly if one of them cannot be moved. Then the variables before
the first such one have been moved, this one has its new binding in its old set, and the others are
where they were: the words are as before exactly if the writes up to there change no number. The
length of the words and all words but numbers of places are never changed, and the module can be
read again. -/
theorem patch_interrupted (words : List UInt32) (moves : Moves) :
    (∀ words' e, patch words moves = (words', .error e) ↔
        collect words = .error e ∧ words' = words ∨
          ∃ ds, collect words = .ok ds ∧ patchAll moves words ds = (words', .error e)) ∧
      ∀ is ds order, preamble words = .ok is → collect words = .ok ds → order.Perm ds →
        ((∃ words' e, patchAll moves words order = (words', .error e)) ↔
          ∃ d ∈ ds, ∃ place target, Stuck moves d place target) ∧
        ∀ words' e, patchAll moves words order = (words', .error e) →
          ∃ before d after place target, order = before ++ d :: after ∧
            e = .noSetDecoration d.id target.group ∧
            Interrupted moves words words' before d after place target ∧
            words'.length = words.length ∧
            (∀ p, words'[p]? ≠ words[p]? → IsPlaceLiteral is p) ∧
            collect words' = .ok (ds.map (·.reread words')) := by
  refine ⟨fun words' e => patch_eq_error_iff, fun is ds order his hds horder => ⟨?_, ?_⟩⟩
  · constructor
    · rintro ⟨words', e, h⟩
      obtain ⟨before, d, after, rfl, -, hd, -⟩ := patchAll_eq_error_iff.1 h
      obtain ⟨place, target, hstuck, -⟩ := verdict_eq_error_iff.1 hd
      exact ⟨d, horder.mem_iff.1 (by simp), place, target, hstuck⟩
    · rintro ⟨d, hd, place, target, hstuck⟩
      rcases hrun : patchAll moves words order with ⟨words', e | found⟩
      · exact ⟨words', e, rfl⟩
      · obtain ⟨-, hall⟩ := exists_patchAll_eq_ok_iff.1 ⟨found, hrun⟩
        obtain ⟨c, hc⟩ := hall d (horder.mem_iff.2 hd)
        cases hc.symm.trans (verdict_eq_error_iff.2 ⟨place, target, hstuck, rfl⟩)
  · intro words' e h
    obtain ⟨before, d, after, rfl, hbefore, hd, rfl⟩ := patchAll_eq_error_iff.1 h
    obtain ⟨place, target, hstuck, rfl⟩ := verdict_eq_error_iff.1 hd
    have hlaid := laid_of_collect hds horder
    obtain ⟨_, his', rfl⟩ := collect_eq_ok_iff.1 hds
    cases his.symm.trans his'
    have hvisited : ∀ c ∈ before ++ [d], c ∈ is.foldl collectOne [] := fun c hc =>
      horder.mem_iff.1 (by rw [List.append_cons]; exact List.mem_append_left _ hc)
    obtain ⟨hliteral, hagain⟩ := collect_written his hvisited
    exact ⟨before, d, after, place, target, rfl, rfl, interrupted_of_stuck hlaid hbefore hstuck,
      length_written _, hliteral, hagain⟩

/-- Moves of the two places of `redecorated`, both out of set 0. -/
def outbound : Moves :=
  [(⟨0, 2⟩, ⟨1, 7⟩), (⟨0, 5⟩, ⟨2, 9⟩)]

/-- Variable 6 cannot be moved. What is left of the words depends on whether it is visited before or
after variable 5. -/
theorem patch_interrupted_redecorated :
    patchAll outbound (redecorated 0 2 5)
        [⟨6, none, some ⟨20, 5⟩⟩, ⟨5, some ⟨12, 0⟩, some ⟨16, 2⟩⟩] =
      (redecorated 0 2 9, .error (.noSetDecoration 6 2)) ∧
    collect (redecorated 0 2 9) =
      .ok [⟨5, some ⟨12, 0⟩, some ⟨16, 2⟩⟩, ⟨6, none, some ⟨20, 9⟩⟩] ∧
    patch (redecorated 0 2 5) outbound = (redecorated 1 7 9, .error (.noSetDecoration 6 2)) := by
  have hrun : patchAll outbound (redecorated 0 2 5)
      [⟨6, none, some ⟨20, 5⟩⟩, ⟨5, some ⟨12, 0⟩, some ⟨16, 2⟩⟩] =
        (redecorated 0 2 9, .error (.noSetDecoration 6 2)) := rfl
  have hcollect : collect (redecorated 0 2 5) =
      .ok [⟨5, some ⟨12, 0⟩, some ⟨16, 2⟩⟩, ⟨6, none, some ⟨20, 5⟩⟩] := by
    decide +kernel
  obtain ⟨is, his, -⟩ := collect_eq_ok_iff.1 hcollect
  obtain ⟨hpatch, horders⟩ := patch_interrupted (redecorated 0 2 5) outbound
  obtain ⟨-, hfails⟩ := horders is _ _ his hcollect (.swap ..)
  obtain ⟨_, _, _, _, _, -, -, -, -, -, hagain⟩ := hfails _ _ hrun
  exact ⟨hrun, hagain, (hpatch _ _).2 (.inr ⟨_, hcollect, rfl⟩)⟩

/-- A module with one variable, which names no set. -/
def setless (binding : UInt32) : List UInt32 :=
  [0x07230203, 0x00010000, 0, 20, 0, 0x00040047, 12, 33, binding]

/-- A patch that fails has overwritten the binding of the one variable. -/
theorem patch_not_atomic :
    patch (setless 5) [(⟨0, 5⟩, ⟨1, 0⟩)] = (setless 0, .error (.noSetDecoration 12 1)) ∧
      setless 0 ≠ setless 5 := by
  decide +kernel

end ShaderBind.Spirv
