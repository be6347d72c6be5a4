import ShaderBind.Source.Path

/-!
# Include paths and places

A path is a walk from a directory to a place (`locate`). Its normal form goes up some number of
times and then down along names (`Normal`), and leads to the same place from every directory
(`locate_normalizePath`), for a double dot takes back the name that it cancels. A path in normal
form is its own normal form, so paths with one normal form lead to one place from everywhere.

The converse holds for paths that do not begin at the root. From a directory that is deep enough,
and whose names stand in neither path, a place shows how far the path went up and along which names
it went down (`Normal.eq_of_walk`). A path from the root may go up there without getting anywhere,
which its normal form keeps. `normalizePath_canonical` has all of this.
-/

namespace ShaderBind

/-! ## Pieces between separators -/

namespace Text

theorem splitOn_eq_splitOn (sep : Char) (s : List Char) : splitOn sep s = s.splitOn sep := by
  induction s with
  | nil => rfl
  | cons c s ih =>
    have hne := List.splitOn_ne_nil sep s
    rw [← ih] at hne
    obtain ⟨piece, pieces, hsplit⟩ := List.exists_cons_of_ne_nil hne
    rw [List.splitOn, List.splitOnP_cons_eq_if_modifyHead, ← List.splitOn, ← ih, splitOn, hsplit]
    by_cases hc : c = sep
    · rw [if_pos hc, if_pos (by simpa using hc)]
    · rw [if_neg hc, if_neg (by simpa using hc)]
      rfl

/-- What stands in joined pieces is a separator or stands in a piece. -/
theorem mem_intercalate {sep c : Char} {pieces : List (List Char)}
    (h : c ∈ [sep].intercalate pieces) : c = sep ∨ ∃ piece ∈ pieces, c ∈ piece := by
  induction pieces with
  | nil => exact absurd h List.not_mem_nil
  | cons piece pieces ih =>
    cases pieces with
    | nil => exact .inr ⟨piece, List.mem_cons_self, by simpa using h⟩
    | cons next pieces =>
      rw [List.intercalate_cons_cons, List.mem_append, List.mem_append, List.mem_singleton] at h
      rcases h with (h | h) | h
      · exact .inr ⟨piece, List.mem_cons_self, h⟩
      · exact .inl h
      · obtain h | ⟨p, hp, hc⟩ := ih h
        · exact .inl h
        · exact .inr ⟨p, List.mem_cons_of_mem _ hp, hc⟩

/-- A piece has no separator, and only characters of the text. -/
theorem mem_of_mem_splitOn {sep c : Char} {s piece : List Char} (h : piece ∈ splitOn sep s)
    (hc : c ∈ piece) : c ∈ s ∧ c ≠ sep := by
  induction s generalizing piece with
  | nil =>
    rw [splitOn, List.mem_singleton] at h
    subst h
    exact absurd hc List.not_mem_nil
  | cons d s ih =>
    rw [splitOn] at h
    split at h
    next =>
      rcases List.mem_cons.1 h with rfl | h
      · exact absurd hc List.not_mem_nil
      · exact (ih h hc).imp_left (List.mem_cons_of_mem d)
    next hd =>
      split at h
      next hsplit =>
        rw [List.mem_singleton] at h
        subst h
        rw [List.mem_singleton] at hc
        subst hc
        exact ⟨List.mem_cons_self, hd⟩
      next first pieces hsplit =>
        rcases List.mem_cons.1 h with rfl | h
        · rcases List.mem_cons.1 hc with rfl | hc
          · exact ⟨List.mem_cons_self, hd⟩
          · exact (ih (hsplit ▸ List.mem_cons_self) hc).imp_left (List.mem_cons_of_mem d)
        · exact (ih (hsplit ▸ List.mem_cons_of_mem _ h) hc).imp_left (List.mem_cons_of_mem d)

end Text

namespace Source

/-! ## Walks -/

/-- A directory, by the names that lead to it from the root. -/
abbrev Directory := List String

namespace Directory

/-- The directory after one component. There is no way up from the root. -/
def enter (here : Directory) (part : String) : Directory :=
  if part = "" ∨ part = "." then here
  else if part = ".." then here.dropLast
  else here ++ [part]

/-- The place that components lead to, one after the other. -/
def walk (here : Directory) (parts : List String) : Directory :=
  parts.foldl enter here

end Directory

/-- Whether a path begins at the root. -/
def isAbsolute (path : String) : Bool :=
  (withSlashes path).head? = some '/'

/-- The place that a path leads to from a directory. -/
def locate (start : Directory) (path : String) : Directory :=
  Directory.walk (if isAbsolute path then [] else start) (components (withSlashes path))

/-- A name that a directory or a file can have. -/
structure IsName (name : String) : Prop where
  ne_empty : name ≠ ""
  ne_dot : name ≠ "."
  ne_dots : name ≠ ".."
  no_slash : '/' ∉ name.toList

namespace Directory

variable {here : Directory}

/-- A name leads one directory down. -/
theorem enter_of_isName {name : String} (h : IsName name) : here.enter name = here ++ [name] := by
  rw [enter, if_neg (not_or.2 ⟨h.ne_empty, h.ne_dot⟩), if_neg h.ne_dots]

theorem walk_append (here : Directory) (parts more : List String) :
    here.walk (parts ++ more) = (here.walk parts).walk more :=
  List.foldl_append

/-- Names lead down, one after the other. -/
theorem walk_names {names : List String} (h : ∀ n ∈ names, IsName n) :
    here.walk names = here ++ names := by
  induction names generalizing here with
  | nil => exact (List.append_nil here).symm
  | cons n names ih =>
    obtain ⟨hn, hnames⟩ := List.forall_mem_cons.1 h
    calc here.walk (n :: names) = (here.enter n).walk names := rfl
      _ = here ++ n :: names := by rw [enter_of_isName hn, ih hnames, ← List.append_cons]

/-- Each pair of dots leads one directory up, and from the top nowhere. -/
theorem walk_ups (here : Directory) (k : Nat) :
    here.walk (List.replicate k "..") = here.take (here.length - k) := by
  induction k generalizing here with
  | zero => simp [walk]
  | succ k ih =>
    calc here.walk (List.replicate (k + 1) "..")
        = Directory.walk here.dropLast (List.replicate k "..") := rfl
      _ = here.take (here.length - (k + 1)) := by
        rw [ih, List.dropLast_eq_take, List.take_take, List.length_take]
        congr 1
        omega

end Directory

/-! ## Normal components -/

/-- The components go up some number of times and then down along names. -/
def Normal (parts : List String) : Prop :=
  ∃ k names, parts = List.replicate k ".." ++ names ∧ ∀ n ∈ names, IsName n

section

variable {stack parts : List String} {part : String}

theorem pushComponent_of_isName (h : IsName part) : pushComponent stack part = part :: stack := by
  unfold pushComponent
  rw [if_neg (not_or.2 ⟨h.ne_empty, h.ne_dot⟩), if_neg h.ne_dots]

theorem pushComponent_dots_of_isName {last : String} (h : IsName last) :
    pushComponent (last :: stack) ".." = stack :=
  if_neg h.ne_dots

/-- Pairs of dots with no name in front of them add up. -/
theorem pushComponent_dots_replicate (k : Nat) :
    pushComponent (List.replicate k "..") ".." = List.replicate (k + 1) ".." := by
  cases k <;> rfl

/-- A component that is taken onto a normal stack leaves it normal, and leads on from the place that
the stack leads to. -/
theorem normal_pushComponent (hslash : '/' ∉ part.toList) (h : Normal stack.reverse) :
    Normal (pushComponent stack part).reverse ∧
      ∀ here : Directory,
        here.walk (pushComponent stack part).reverse = (here.walk stack.reverse).enter part := by
  by_cases hskip : part = "" ∨ part = "."
  · unfold pushComponent
    rw [if_pos hskip]
    exact ⟨h, fun here => by rw [Directory.enter, if_pos hskip]⟩
  by_cases hdots : part = ".."
  · subst hdots
    obtain ⟨k, names, hstack, hnames⟩ := h
    rcases List.eq_nil_or_concat names with rfl | ⟨front, last, rfl⟩
    · -- nothing to cancel: one more step up
      rw [List.append_nil, List.reverse_eq_iff, List.reverse_replicate] at hstack
      rw [hstack, pushComponent_dots_replicate, List.reverse_replicate, List.reverse_replicate,
        List.replicate_succ']
      refine ⟨⟨k + 1, [], by rw [List.append_nil, List.replicate_succ'], by simp⟩, fun here => ?_⟩
      exact here.walk_append _ _
    · -- the last name is taken back
      rw [List.concat_eq_append, List.forall_mem_append, List.forall_mem_singleton] at hnames
      rw [List.concat_eq_append, ← List.append_assoc, List.reverse_eq_iff, List.reverse_append,
        List.reverse_singleton, List.singleton_append] at hstack
      rw [hstack, pushComponent_dots_of_isName hnames.2, List.reverse_cons, List.reverse_reverse]
      refine ⟨⟨k, front, rfl, hnames.1⟩, fun here => ?_⟩
      rw [here.walk_append (List.replicate k ".." ++ front) [last]]
      change _ = (Directory.enter _ last).dropLast
      rw [Directory.enter_of_isName hnames.2, List.dropLast_concat]
  · have hname : IsName part := ⟨fun h => hskip (.inl h), fun h => hskip (.inr h), hdots, hslash⟩
    obtain ⟨k, names, hstack, hnames⟩ := h
    rw [pushComponent_of_isName hname, List.reverse_cons, hstack]
    refine ⟨⟨k, names ++ [part], List.append_assoc .., ?_⟩, fun here => here.walk_append _ _⟩
    exact List.forall_mem_append.2 ⟨hnames, List.forall_mem_singleton.2 hname⟩

/-- All components, taken one by one, leave a normal stack that leads where they lead. -/
theorem normal_foldl_pushComponent (hslash : ∀ part ∈ parts, '/' ∉ part.toList)
    (h : Normal stack.reverse) :
    Normal (parts.foldl pushComponent stack).reverse ∧
      ∀ here : Directory,
        here.walk (parts.foldl pushComponent stack).reverse =
          (here.walk stack.reverse).walk parts := by
  induction parts generalizing stack with
  | nil => exact ⟨h, fun _ => rfl⟩
  | cons part parts ih =>
    obtain ⟨hpart, hparts⟩ := List.forall_mem_cons.1 hslash
    obtain ⟨hnormal, hwalk⟩ := normal_pushComponent hpart h
    obtain ⟨hnormal', hwalk'⟩ := ih hparts hnormal
    refine ⟨hnormal', fun here => (hwalk' here).trans ?_⟩
    rw [hwalk]
    rfl

/-- Normal parts lead where the parts lead. -/
theorem normal_normalComponents (hslash : ∀ part ∈ parts, '/' ∉ part.toList) :
    Normal (normalComponents parts) ∧
      ∀ here : Directory, here.walk (normalComponents parts) = here.walk parts :=
  normal_foldl_pushComponent hslash ⟨0, [], rfl, by simp⟩

/-- Normal components are left as they are. -/
theorem Normal.normalComponents_eq (h : Normal parts) : normalComponents parts = parts := by
  obtain ⟨k, names, rfl, hnames⟩ := h
  have hups : (List.replicate k "..").foldl pushComponent [] = List.replicate k ".." := by
    induction k with
    | zero => rfl
    | succ k ih =>
      rw [List.replicate_succ', List.foldl_append, ih, ← List.replicate_succ']
      exact pushComponent_dots_replicate k
  have hdown : ∀ (names stack : List String), (∀ n ∈ names, IsName n) →
      names.foldl pushComponent stack = names.reverse ++ stack := by
    intro names
    induction names with
    | nil => exact fun _ _ => rfl
    | cons n names ih =>
      intro stack hnames
      obtain ⟨hn, hnames⟩ := List.forall_mem_cons.1 hnames
      rw [List.foldl_cons, pushComponent_of_isName hn, ih _ hnames, List.reverse_cons,
        List.append_cons]
  rw [normalComponents, List.foldl_append, hups, hdown names _ hnames, List.reverse_append,
    List.reverse_reverse, List.reverse_replicate]

/-- There is a name besides any that are given. -/
theorem exists_isName_not_mem (names : List String) : ∃ name, IsName name ∧ name ∉ names := by
  -- one that is longer than all of them together
  let n := (names.map String.toList).flatten.length
  have htext : (String.ofList ('a' :: List.replicate n 'a')).toList = 'a' :: List.replicate n 'a' :=
    String.toList_ofList
  generalize String.ofList ('a' :: List.replicate n 'a') = name at htext
  refine ⟨name, ⟨?_, ?_, ?_, ?_⟩, fun hmem => ?_⟩
  · rintro rfl
    cases htext
  · rintro rfl
    cases htext
  · rintro rfl
    cases htext
  · simp [htext]
  · have hle : name.toList.length ≤ n :=
      (List.sublist_flatten_of_mem (List.mem_map_of_mem hmem)).length_le
    rw [htext, List.length_cons, List.length_replicate] at hle
    omega

/-- Normal components that lead from every directory to one place are the same. -/
theorem Normal.eq_of_walk {parts' : List String} (h : Normal parts) (h' : Normal parts')
    (hwalk : ∀ start : Directory, (∀ n ∈ start, IsName n) → start.walk parts = start.walk parts') :
    parts = parts' := by
  obtain ⟨k, names, rfl, hnames⟩ := h
  obtain ⟨k', names', rfl, hnames'⟩ := h'
  obtain ⟨fresh, hfresh, hnew⟩ := exists_isName_not_mem (names ++ names')
  rw [List.mem_append, not_or] at hnew
  -- a directory that lies deep enough for both, and whose name is met nowhere else
  have hplace := hwalk (List.replicate (k + k') fresh) fun n hn => by
    rwa [List.eq_of_mem_replicate hn]
  rw [Directory.walk_append, Directory.walk_append, Directory.walk_names hnames,
    Directory.walk_names hnames', Directory.walk_ups, Directory.walk_ups, List.length_replicate,
    List.take_replicate, List.take_replicate] at hplace
  have hleft : min (k + k' - k) (k + k') = k' := by omega
  have hright : min (k + k' - k') (k + k') = k := by omega
  rw [hleft, hright] at hplace
  have hcount := congrArg (List.count fresh) hplace
  rw [List.count_append, List.count_append, List.count_replicate_self, List.count_replicate_self,
    List.count_eq_zero.2 hnew.1, List.count_eq_zero.2 hnew.2, Nat.add_zero, Nat.add_zero] at hcount
  subst hcount
  rw [List.append_cancel_left hplace]

end

/-! ## Paths in normal form -/

/-- The components of the normal form of a path. -/
def normalParts (path : String) : List String :=
  normalComponents (components (withSlashes path))

section

variable {path : String} {part : String} {c : Char}

/-- A component has no slash, and only characters of the path. -/
theorem mem_of_mem_components {cs : List Char} (h : part ∈ components cs) (hc : c ∈ part.toList) :
    c ∈ cs ∧ c ≠ '/' := by
  obtain ⟨piece, hpiece, rfl⟩ := List.mem_map.1 h
  rw [String.toList_ofList] at hc
  exact Text.mem_of_mem_splitOn hpiece hc

theorem backslash_not_mem_withSlashes (path : String) : '\\' ∉ withSlashes path := by
  intro h
  obtain ⟨c, -, hc⟩ := List.mem_map.1 h
  split at hc
  · cases hc
  · contradiction

theorem withSlashes_eq_toList (h : '\\' ∉ path.toList) : withSlashes path = path.toList := by
  refine (List.map_congr_left fun c hc => if_neg ?_).trans (List.map_id _)
  rintro rfl
  exact h hc

theorem mem_of_mem_pushComponent {stack : List String} {new : String}
    (h : part ∈ pushComponent stack new) : part ∈ new :: stack := by
  unfold pushComponent at h
  split at h
  · exact List.mem_cons_of_mem _ h
  · split at h
    · split at h
      · split at h
        · exact h
        · exact List.mem_cons_of_mem _ (List.mem_cons_of_mem _ h)
      · exact h
    · exact h

/-- What is left of components was there before. -/
theorem mem_of_mem_normalComponents {parts : List String} (h : part ∈ normalComponents parts) :
    part ∈ parts := by
  have hrun : ∀ parts stack : List String, part ∈ parts.foldl pushComponent stack →
      part ∈ parts ∨ part ∈ stack := by
    intro parts
    induction parts with
    | nil => exact fun _ h => .inr h
    | cons new parts ih =>
      intro stack h
      rcases ih _ h with h | h
      · exact .inl (List.mem_cons_of_mem _ h)
      · rcases List.mem_cons.1 (mem_of_mem_pushComponent h) with rfl | h
        · exact .inl List.mem_cons_self
        · exact .inr h
  exact (hrun parts [] (List.mem_reverse.1 h)).resolve_right List.not_mem_nil

/-- The normal parts of a path are normal and lead where the path leads. -/
theorem normal_normalParts (path : String) :
    Normal (normalParts path) ∧
      ∀ here : Directory,
        here.walk (normalParts path) = here.walk (components (withSlashes path)) :=
  normal_normalComponents fun _ hpart hslash => (mem_of_mem_components hpart hslash).2 rfl

theorem Normal.ne_empty {parts : List String} (h : Normal parts) (hpart : part ∈ parts) :
    part ≠ "" := by
  obtain ⟨k, names, rfl, hnames⟩ := h
  rcases List.mem_append.1 hpart with hpart | hpart
  · rw [List.eq_of_mem_replicate hpart]
    decide
  · exact (hnames part hpart).ne_empty

/-- No part of a path holds a slash. -/
theorem slash_not_mem_normalParts (h : part ∈ normalParts path) : '/' ∉ part.toList :=
  fun hslash => (mem_of_mem_components (mem_of_mem_normalComponents h) hslash).2 rfl

/-- A normal path is its parts with slashes between them. -/
theorem toList_normalizePath (path : String) :
    (normalizePath path).toList = (if isAbsolute path then ['/'] else []) ++
      ['/'].intercalate ((normalParts path).map String.toList) := by
  have hjoined : ("/".intercalate (normalParts path)).toList =
      ['/'].intercalate ((normalParts path).map String.toList) := String.toList_intercalate
  rw [← hjoined]
  unfold normalizePath isAbsolute
  by_cases habsolute : (withSlashes path).head? = some '/'
  · simp only [habsolute, if_true, decide_true, String.toList_append]
    rfl
  · simp only [habsolute, if_false, decide_false]
    rfl

/-- A normal path has no backslashes. -/
theorem backslash_not_mem_normalizePath (path : String) : '\\' ∉ (normalizePath path).toList := by
  rw [toList_normalizePath, List.mem_append, not_or]
  constructor
  · split <;> decide
  · intro h
    obtain h | ⟨piece, hpiece, hc⟩ := Text.mem_intercalate h
    · cases h
    · obtain ⟨part, hpart, rfl⟩ := List.mem_map.1 hpiece
      exact backslash_not_mem_withSlashes path
        (mem_of_mem_components (mem_of_mem_normalComponents hpart) hc).1

theorem withSlashes_normalizePath (path : String) :
    withSlashes (normalizePath path) = (if isAbsolute path then ['/'] else []) ++
      ['/'].intercalate ((normalParts path).map String.toList) :=
  (withSlashes_eq_toList (backslash_not_mem_normalizePath path)).trans (toList_normalizePath path)

/-- Joined components do not begin with a slash. -/
theorem head?_intercalate_normalParts (path : String) :
    (['/'].intercalate ((normalParts path).map String.toList)).head? ≠ some '/' := by
  cases hparts : normalParts path with
  | nil => simp
  | cons part parts =>
    have hmem : part ∈ normalParts path := hparts ▸ List.mem_cons_self
    have hslash := slash_not_mem_normalParts hmem
    obtain ⟨c, cs, hpart⟩ := List.exists_cons_of_ne_nil fun h =>
      (normal_normalParts path).1.ne_empty hmem (String.toList_eq_nil_iff.1 h)
    have hhead : (['/'].intercalate ((part :: parts).map String.toList)).head? = some c := by
      cases parts <;> simp [List.intercalate_cons_cons, hpart]
    rw [hhead]
    rintro ⟨⟩
    exact hslash (hpart ▸ List.mem_cons_self)

/-- A path is absolute if and only if its normal form is. -/
theorem isAbsolute_normalizePath (path : String) :
    isAbsolute (normalizePath path) = isAbsolute path := by
  rw [isAbsolute, withSlashes_normalizePath]
  cases isAbsolute path with
  | true => rfl
  | false => simpa using head?_intercalate_normalParts path

/-- The components of a path in normal form are the normal ones, behind empty ones for the root and
for a path without any. -/
theorem components_normalizePath (path : String) :
    ∃ n, components (withSlashes (normalizePath path)) =
      List.replicate n "" ++ normalParts path := by
  have hjoined : ∃ n, components (['/'].intercalate ((normalParts path).map String.toList)) =
      List.replicate n "" ++ normalParts path := by
    by_cases hparts : normalParts path = []
    · rw [hparts]
      exact ⟨1, rfl⟩
    · refine ⟨0, ?_⟩
      have hslash : ∀ piece ∈ (normalParts path).map String.toList, '/' ∉ piece := by
        intro piece hpiece
        obtain ⟨part, hpart, rfl⟩ := List.mem_map.1 hpiece
        exact slash_not_mem_normalParts hpart
      rw [components, Text.splitOn_eq_splitOn,
        List.splitOn_intercalate '/' hslash (by simpa using hparts), List.map_map]
      simp
  obtain ⟨n, hn⟩ := hjoined
  rw [withSlashes_normalizePath]
  split
  · exact ⟨n + 1, congrArg (List.cons "") hn⟩
  · exact ⟨n, hn⟩

/-- Empty components are of no account. -/
theorem normalComponents_replicate_empty (n : Nat) (parts : List String) :
    normalComponents (List.replicate n "" ++ parts) = normalComponents parts := by
  induction n with
  | zero => rfl
  | succ n ih => exact ih

/-- A normal path has the parts that it was made from. -/
theorem normalParts_normalizePath (path : String) :
    normalParts (normalizePath path) = normalParts path := by
  obtain ⟨n, hn⟩ := components_normalizePath path
  rw [normalParts, hn, normalComponents_replicate_empty]
  exact (normal_normalParts path).1.normalComponents_eq

end

/-! ## Places and normal forms -/

section

variable {p q : String}

/-- A path leads where the components of its normal form lead. -/
theorem locate_eq_walk_normalParts (start : Directory) (path : String) :
    locate start path = Directory.walk (if isAbsolute path then [] else start) (normalParts path) :=
  ((normal_normalParts path).2 _).symm

/-- A path and its normal form lead to one place. -/
theorem locate_normalizePath (start : Directory) (path : String) :
    locate start (normalizePath path) = locate start path := by
  rw [locate_eq_walk_normalParts, locate_eq_walk_normalParts, isAbsolute_normalizePath,
    normalParts_normalizePath]

/-- A normal form is given by its components and by whether it begins at the root. -/
theorem normalizePath_congr (habsolute : isAbsolute p = isAbsolute q)
    (hparts : normalParts p = normalParts q) : normalizePath p = normalizePath q := by
  rw [← String.toList_inj, toList_normalizePath, toList_normalizePath, habsolute, hparts]

/-- Paths with one normal form lead to one place, from everywhere. -/
theorem locate_eq_of_normalizePath_eq (h : normalizePath p = normalizePath q) (start : Directory) :
    locate start p = locate start q := by
  rw [← locate_normalizePath start p, h, locate_normalizePath]

/-- Relative paths that lead to one place from everywhere have the same parts. -/
theorem normalParts_eq_of_locate_eq (hp : isAbsolute p = false) (hq : isAbsolute q = false)
    (h : ∀ start : Directory, (∀ n ∈ start, IsName n) → locate start p = locate start q) :
    normalParts p = normalParts q := by
  refine (normal_normalParts p).1.eq_of_walk (normal_normalParts q).1 fun start hstart => ?_
  have hplace := h start hstart
  rw [locate_eq_walk_normalParts, locate_eq_walk_normalParts, hp, hq] at hplace
  exact hplace

/-- The normal form of a path leads to the same place as the path, from every directory, and is its
own normal form; so paths with one normal form lead to the same place. Of paths that do not begin at
the root, those that lead to the same place from every directory have one normal form. -/
theorem normalizePath_canonical (p q : String) :
    (∀ start, locate start (normalizePath p) = locate start p) ∧
      normalizePath (normalizePath p) = normalizePath p ∧
      (normalizePath p = normalizePath q → ∀ start, locate start p = locate start q) ∧
      (isAbsolute p = false → isAbsolute q = false →
        (∀ start : Directory, (∀ n ∈ start, IsName n) → locate start p = locate start q) →
        normalizePath p = normalizePath q) := by
  refine ⟨fun start => locate_normalizePath start p, ?_, locate_eq_of_normalizePath_eq,
    fun hp hq h => ?_⟩
  · exact normalizePath_congr (isAbsolute_normalizePath p) (normalParts_normalizePath p)
  · exact normalizePath_congr (hp.trans hq.symm) (normalParts_eq_of_locate_eq hp hq h)

/-- Two spellings of one path. -/
theorem normalizePath_canonical_mixed :
    normalizePath "./a\\..\\..\\b//c" = normalizePath "../x/../b/c/." ∧
      ∀ start, locate start "./a\\..\\..\\b//c" = locate start "../x/../b/c/." := by
  have hnormal : normalizePath "./a\\..\\..\\b//c" = normalizePath "../x/../b/c/." := by
    decide +kernel
  exact ⟨hnormal, (normalizePath_canonical _ _).2.2.1 hnormal⟩

-- a path from the root may go up there, which leads nowhere but is kept
example : locate ["x"] "/../a" = locate ["x"] "/a" ∧
    normalizePath "/../a" ≠ normalizePath "/a" := by
  decide +kernel

end

end Source

end ShaderBind
