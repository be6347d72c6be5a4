import ShaderBind.Source.Macro
import ShaderBind.Text.Cut

/-!
# Macros of which the last definition counts

A walk from the end of a list of macros keeps each name that is new to it. What comes of it is said
without the walk: a macro is kept where no later one has its name (`keepLast_eq_places`), so that of
each name the last macro is left and no other (`filter_keepLast`).

How two lists go together follows from how a walk does (`keepUnseen_append`): in front of a list
those macros count that it does not redefine (`keepLast_append_eq_filter`). The table of
definitions and the text of `define` lines hold what was kept, and reading the text line by line
gives the table back (`definitions_macroLines`). `keepLast_lastWins` has all of this.
-/

namespace ShaderBind

theorem Text.splitOn_append_cons {sep : Char} {s : List Char} (h : sep ∉ s) (rest : List Char) :
    splitOn sep (s ++ sep :: rest) = s :: splitOn sep rest := by
  induction s with
  | nil => rw [List.nil_append, splitOn, if_pos rfl]
  | cons c s ih =>
    rw [List.mem_cons, not_or] at h
    rw [List.cons_append, splitOn, if_neg (Ne.symm h.1), ih h.2]

namespace Source

/-- The last macro of a name. -/
def lastNamed? (ms : List Macro) (name : String) : Option Macro :=
  (ms.filter fun m => m.name = name).getLast?

/-! ## What is kept -/

/-- Names that were seen before only drop macros from what a walk keeps. -/
theorem keepUnseen_eq_filter (seen : List String) (ms : List Macro) :
    keepUnseen seen ms = (keepUnseen [] ms).filter fun m => m.name ∉ seen := by
  induction ms generalizing seen with
  | nil => rfl
  | cons m ms ih =>
    have hwalk : keepUnseen [] (m :: ms) = m :: keepUnseen [m.name] ms := rfl
    rw [hwalk, keepUnseen, ih [m.name], List.filter_cons, List.filter_filter]
    by_cases hm : m.name ∈ seen
    · rw [if_pos hm, if_neg (by simpa using hm), ih seen]
      refine List.filter_congr fun n _ => ?_
      have hne : n.name ∉ seen → n.name ≠ m.name := fun hn heq => hn (heq ▸ hm)
      simpa using hne
    · rw [if_neg hm, if_pos (by simpa using hm), ih (m.name :: seen)]
      refine congrArg _ (List.filter_congr fun n _ => ?_)
      simp [Bool.and_comm]

theorem keepUnseen_append (seen : List String) (a b : List Macro) :
    keepUnseen seen (a ++ b) =
      keepUnseen seen a ++
        (keepUnseen [] b).filter fun m => m.name ∉ seen ∧ ∀ n ∈ a, n.name ≠ m.name := by
  induction a generalizing seen with
  | nil => simpa [keepUnseen] using keepUnseen_eq_filter seen b
  | cons m a ih =>
    rw [List.cons_append, keepUnseen, keepUnseen]
    by_cases hm : m.name ∈ seen
    · rw [if_pos hm, if_pos hm, ih seen]
      refine congrArg _ (List.filter_congr fun n _ => decide_eq_decide.2 ?_)
      rw [List.forall_mem_cons]
      exact ⟨fun h => ⟨h.1, fun heq => h.1 (heq ▸ hm), h.2⟩, fun h => ⟨h.1, h.2.2⟩⟩
    · rw [if_neg hm, if_neg hm, ih (m.name :: seen), List.cons_append]
      refine congrArg _ (congrArg _ (List.filter_congr fun n _ => decide_eq_decide.2 ?_))
      rw [List.mem_cons, not_or, List.forall_mem_cons]
      exact ⟨fun h => ⟨h.1.2, Ne.symm h.1.1, h.2⟩, fun h => ⟨⟨Ne.symm h.2.1, h.1⟩, h.2.2⟩⟩

/-- In front of a list those macros count that it does not redefine. -/
theorem keepLast_append_eq_filter (a b : List Macro) :
    keepLast (a ++ b) =
      ((keepLast a).filter fun m => ∀ n ∈ b, n.name ≠ m.name) ++ keepLast b := by
  unfold keepLast
  rw [List.reverse_append, keepUnseen_append, List.reverse_append, List.filter_reverse]
  simp

theorem keepLast_cons (m : Macro) (ms : List Macro) :
    keepLast (m :: ms) =
      (if ∀ n ∈ ms, n.name ≠ m.name then [m] else []) ++ keepLast ms := by
  have happend := keepLast_append_eq_filter [m] ms
  rw [List.singleton_append] at happend
  rw [happend]
  have hsingle : keepLast [m] = [m] := rfl
  rw [hsingle, List.filter_cons, List.filter_nil]
  simp only [decide_eq_true_eq]

/-- What is kept of the macros with names of some kind is what is kept of all, as far as it is of
the kind. -/
theorem keepLast_filter (p : String → Bool) (ms : List Macro) :
    keepLast (ms.filter fun m => p m.name) = (keepLast ms).filter fun m => p m.name := by
  induction ms with
  | nil => rfl
  | cons m ms ih =>
    rw [keepLast_cons, List.filter_append, ← ih, List.filter_cons]
    by_cases hm : p m.name
    · have hlater : (∀ n ∈ ms.filter fun n => p n.name, n.name ≠ m.name) ↔
          ∀ n ∈ ms, n.name ≠ m.name := by
        refine ⟨fun h n hn heq => h n (List.mem_filter.2 ⟨hn, ?_⟩) heq, fun h n hn =>
          h n (List.mem_filter.1 hn).1⟩
        rw [heq]
        exact hm
      rw [if_pos hm, keepLast_cons]
      simp only [hlater]
      split <;> simp [hm]
    · rw [if_neg hm]
      split <;> simp [hm]

theorem keepLast_sublist (ms : List Macro) : (keepLast ms).Sublist ms := by
  induction ms with
  | nil => exact List.Sublist.refl []
  | cons m ms ih =>
    rw [keepLast_cons]
    split
    · exact ih.cons_cons m
    · exact ih.cons m

/-- A macro is kept exactly where none of the macros behind it has its name. -/
theorem keepLast_eq_places (ms : List Macro) :
    keepLast ms =
      (ms.zipIdx.filter fun p =>
        (ms.drop (p.2 + 1)).all fun n => n.name ≠ p.1.name).map Prod.fst := by
  induction ms with
  | nil => rfl
  | cons m ms ih =>
    rw [keepLast_cons, ih, List.zipIdx_cons, List.zipIdx_succ, List.filter_cons, List.filter_map]
    simp only [List.drop_succ_cons, List.drop_zero, List.all_eq_true, decide_eq_true_eq]
    split <;> simp [Function.comp_def]

/-- Of each name the last macro is kept, and no other. -/
theorem filter_keepLast (ms : List Macro) (name : String) :
    ((keepLast ms).filter fun m => m.name = name) = (lastNamed? ms name).toList := by
  have hfilter := keepLast_filter (fun s => s = name) ms
  rw [← hfilter, lastNamed?]
  have hnames : ∀ m ∈ ms.filter (fun m => m.name = name), m.name = name := fun m hm => by
    simpa using (List.mem_filter.1 hm).2
  generalize ms.filter (fun m => m.name = name) = named at hnames ⊢
  rcases List.eq_nil_or_concat named with rfl | ⟨earlier, last, rfl⟩
  · rfl
  · -- all macros before the last one have its name
    have hearlier :
        (keepLast earlier).filter (fun m : Macro => ∀ n ∈ [last], n.name ≠ m.name) = [] := by
      refine List.filter_eq_nil_iff.2 fun m hm => ?_
      have hmem := (keepLast_sublist earlier).subset hm
      have hm : m.name = name := hnames m (by simp [hmem])
      have hlast : last.name = name := hnames last (by simp)
      simp [hm, hlast]
    rw [List.concat_eq_append, keepLast_append_eq_filter, hearlier, List.nil_append,
      List.getLast?_append]
    rfl

theorem nodup_names_keepLast (ms : List Macro) : ((keepLast ms).map Macro.name).Nodup := by
  induction ms with
  | nil => exact List.nodup_nil
  | cons m ms ih =>
    rw [keepLast_cons]
    split
    next hlater =>
      refine List.nodup_cons.2 ⟨fun hmem => ?_, ih⟩
      obtain ⟨n, hn, heq⟩ := List.mem_map.1 hmem
      exact hlater n ((keepLast_sublist ms).subset hn) heq
    next => exact ih

theorem keepLast_of_nodup {ms : List Macro} (h : (ms.map Macro.name).Nodup) : keepLast ms = ms := by
  induction ms with
  | nil => rfl
  | cons m ms ih =>
    obtain ⟨hm, hms⟩ := List.nodup_cons.1 h
    have hlater : ∀ n ∈ ms, n.name ≠ m.name := fun n hn heq =>
      hm (List.mem_map.2 ⟨n, hn, heq⟩)
    rw [keepLast_cons, if_pos hlater, ih hms, List.singleton_append]

/-! ## Where the definitions go -/

/-- The table gives every name of the macros once, with its last definition. -/
structure Tabulates (ms : List Macro) (table : List (String × String)) : Prop where
  once : (table.map Prod.fst).Nodup
  lookup_eq : ∀ name, table.lookup name = (lastNamed? ms name).map Macro.definition

theorem lookup_map_macros (ms : List Macro) (name : String) :
    (ms.map fun m => (m.name, m.definition)).lookup name =
      ((ms.filter fun m => m.name = name).head?).map Macro.definition := by
  induction ms with
  | nil => rfl
  | cons m ms ih =>
    rw [List.map_cons, List.lookup_cons, ih, List.filter_cons]
    by_cases hm : m.name = name
    · simp [hm]
    · have hne : (name == m.name) = false := by simpa using Ne.symm hm
      simp [hm, hne]

theorem tabulates_macroTable (ms : List Macro) : Tabulates ms (macroTable ms) where
  once := by
    rw [macroTable, List.map_map]
    exact nodup_names_keepLast ms
  lookup_eq name := by
    rw [macroTable, lookup_map_macros, filter_keepLast]
    cases lastNamed? ms name <;> rfl

/-- The name and the text that a `define` line sets. -/
def definitionOf? (line : List Char) : Option (String × String) := do
  let rest ← Text.dropPrefix? "#define ".toList line
  match rest.dropWhile (· != ' ') with
  | ' ' :: text => some (String.ofList (rest.takeWhile (· != ' ')), String.ofList text)
  | _ => none

/-- The definitions of a text, line by line. -/
def definitions (text : String) : List (String × String) :=
  (Text.splitOn '\n' text.toList).filterMap definitionOf?

/-- The macro's `define` line is one line, on which the name ends at a blank. -/
structure Macro.OneLine (m : Macro) : Prop where
  name_blank : ' ' ∉ m.name.toList
  name_newline : '\n' ∉ m.name.toList
  definition_newline : '\n' ∉ m.definition.toList

/-- A `define` line without its end. -/
theorem definitionOf?_line {name definition : List Char} (h : ' ' ∉ name) :
    definitionOf? ("#define ".toList ++ (name ++ ' ' :: definition)) =
      some (String.ofList name, String.ofList definition) := by
  have hname : ∀ c ∈ name, (c != ' ') = true := fun c hc => by
    simpa using fun heq : c = ' ' => h (heq ▸ hc)
  unfold definitionOf?
  rw [Text.dropPrefix?_append]
  simp only [Option.bind_eq_bind, Option.bind_some]
  rw [List.takeWhile_append_of_pos hname, List.dropWhile_append_of_pos hname]
  simp

theorem definitions_macroLines {ms : List Macro} (h : ∀ m ∈ ms, m.OneLine) :
    definitions (macroLines ms) = macroTable ms := by
  have hkept : ∀ m ∈ keepLast ms, m.OneLine := fun m hm => h m ((keepLast_sublist ms).subset hm)
  unfold definitions macroLines macroTable
  generalize keepLast ms = kept at hkept
  induction kept with
  | nil => rfl
  | cons m kept ih =>
    obtain ⟨hm, hkept⟩ := List.forall_mem_cons.1 hkept
    have hline : (defineLine m.name m.definition).toList =
        ("#define ".toList ++ (m.name.toList ++ ' ' :: m.definition.toList)) ++ ['\n'] := by
      simp [defineLine]
    have hnewline :
        '\n' ∉ "#define ".toList ++ (m.name.toList ++ ' ' :: m.definition.toList) := by
      simp [hm.name_newline, hm.definition_newline]
    rw [List.map_cons, String.join_cons, String.toList_append, hline, List.append_assoc,
      List.singleton_append, Text.splitOn_append_cons hnewline, List.filterMap_cons,
      definitionOf?_line hm.name_blank, ih hkept, String.ofList_toList, String.ofList_toList,
      List.map_cons]

/-- Of several macros of one name the last one counts, everywhere. What is kept of a list are the
macros behind which none of the same name stands, in order, and so the last of each name. In front
of another list those macros count that it does not redefine, and what was kept is kept as it is.
The table of definitions has every name once, with its last definition; the text has one line for
each entry of the table, and the table can be read off it if the macros fit on their lines. -/
theorem keepLast_lastWins (ms : List Macro) :
    ((keepLast ms).Sublist ms ∧
      keepLast ms =
        (ms.zipIdx.filter fun p =>
          (ms.drop (p.2 + 1)).all fun n => n.name ≠ p.1.name).map Prod.fst ∧
      ∀ name, ((keepLast ms).filter fun m => m.name = name) = (lastNamed? ms name).toList) ∧
    (∀ later, keepLast (ms ++ later) =
      keepLast (ms.filter fun m => later.all fun n => n.name ≠ m.name) ++ keepLast later) ∧
    keepLast (keepLast ms) = keepLast ms ∧
    Tabulates ms (macroTable ms) ∧
    macroLines ms = String.join ((macroTable ms).map fun d => defineLine d.1 d.2) ∧
    ((∀ m ∈ ms, m.OneLine) → definitions (macroLines ms) = macroTable ms) := by
  refine ⟨⟨keepLast_sublist ms, keepLast_eq_places ms, filter_keepLast ms⟩, fun later => ?_,
    keepLast_of_nodup (nodup_names_keepLast ms), tabulates_macroTable ms, ?_,
    definitions_macroLines⟩
  · rw [keepLast_filter fun name => later.all fun n => n.name ≠ name, keepLast_append_eq_filter]
    simp only [List.decide_forall_mem]
  · rw [macroLines, macroTable, List.map_map]
    rfl

/-- Macros of which one is defined twice. -/
def redefined : List Macro := [⟨"QUALITY", "1"⟩, ⟨"USE_SHADOWS", ""⟩, ⟨"QUALITY", "3 * 2"⟩]

/-- A name that is defined twice has its last definition, at the last place. -/
theorem keepLast_lastWins_redefined :
    (∀ m ∈ redefined, m.OneLine) ∧
      macroLines redefined = "#define USE_SHADOWS \n#define QUALITY 3 * 2\n" ∧
      definitions (macroLines redefined) = [("USE_SHADOWS", ""), ("QUALITY", "3 * 2")] := by
  have honeLine : ∀ m ∈ redefined, m.OneLine := by
    simp only [redefined, List.forall_mem_cons]
    exact ⟨⟨by decide, by decide, by decide⟩, ⟨by decide, by decide, by decide⟩,
      ⟨by decide, by decide, by decide⟩, by simp⟩
  have hread := (keepLast_lastWins redefined).2.2.2.2.2 honeLine
  exact ⟨honeLine, by decide +kernel, hread.trans (by decide +kernel)⟩

end Source

end ShaderBind
