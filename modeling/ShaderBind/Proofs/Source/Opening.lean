import ShaderBind.Proofs.Source.Walk
import Mathlib.Data.List.Dedup
import Mathlib.Data.List.Nodup

/-!
# Opened files

Which files an unrolling opens, and how deep. A path is opened only when it is new, up to spelling,
so no file is opened twice and the source itself is not opened at all; the depth that is noted with
a path is how deep the file is nested (`Nested`), and it does not exceed the limit. With a store of
few files the limit is never reached: the files that a directive is nested in are different ones of
the store (`Walk.ne_includeDepth`). Both are put together in `run_opened`.
-/

namespace ShaderBind.Source

/-- The normal paths of the files that were opened. -/
def Visit.openedPaths (v : Visit) : List String :=
  v.opened.map fun x => normalizePath x.1

theorem Visit.openedPaths_enter (v : Visit) (path : String) (depth : Nat) :
    (v.enter path depth).openedPaths = v.openedPaths ++ [normalizePath path] := by
  simp [openedPaths, enter]

/-- The files that are opened for a text at a depth, in order: each is named by a directive of the
text, and behind it come the files that are opened for its own text, one level deeper. -/
inductive Nested (store : Store) : (depth : Nat) → (text : List Char) → List (String × Nat) → Prop
  | nil {depth text} : Nested store depth text []
  | cons {depth text cuts cut file inner behind} (hscan : Include.scan text = .ok cuts)
      (hcut : cut ∈ cuts.cuts)
      (hopen : inner ≠ [] → store cut.directive.path = .ok file)
      (hinner : Nested store (depth + 1) file.toList inner)
      (hbehind : Nested store depth text behind) :
      Nested store depth text ((cut.directive.path, depth + 1) :: inner ++ behind)

namespace Unroller

variable {u : Unroller} {room : Nat} {cuts : List Include.Cut} {rest : List Char} {v w : Visit}
  {r : Except Stop Expansion}

/-! ## What every visit keeps -/

/-- What meeting and opening a new path keeps, a walk keeps. -/
theorem Walk.keeps {P : Visit → Prop}
    (hmet : ∀ v path, path ∉ v.seen → P v → P (v.met path))
    (henter : ∀ v path depth, normalizePath path ∉ v.seen → depth ≤ maxIncludeDepth → P v →
      P (v.enter path depth))
    (h : Walk u room cuts rest v r w) (hv : P v) : P w := by
  induction h with
  | done | noStore => exact hv
  | drop _ _ _ ih => exact ih hv
  | tooDeep _ hnew => exact hmet _ _ hnew hv
  | notFound _ hnew => exact henter _ _ _ hnew (Nat.sub_le ..) hv
  | malformed _ hnew => exact henter _ _ _ hnew (Nat.sub_le ..) hv
  | stopped _ hnew _ _ _ ih => exact ih (henter _ _ _ hnew (Nat.sub_le ..) hv)
  | inline _ hnew _ _ _ _ ihfile ihtail =>
    exact ihtail (ihfile (henter _ _ _ hnew (Nat.sub_le ..) hv))

/-- A path that was met stays met. -/
theorem Walk.seen_subset (h : Walk u room cuts rest v r w) : v.seen ⊆ w.seen := by
  refine h.keeps (P := fun v' => v.seen ⊆ v'.seen) ?_ ?_ (List.Subset.refl _)
  · exact fun _ path _ hsub => List.subset_cons_of_subset path hsub
  · exact fun _ path _ _ _ hsub => List.subset_cons_of_subset (normalizePath path) hsub

/-- No file is opened deeper than the limit. -/
theorem Walk.depth_le (h : Walk u room cuts rest v r w)
    (hv : ∀ x ∈ v.opened, x.2 ≤ maxIncludeDepth) : ∀ x ∈ w.opened, x.2 ≤ maxIncludeDepth := by
  refine h.keeps (P := fun v => ∀ x ∈ v.opened, x.2 ≤ maxIncludeDepth) ?_ ?_ hv
  · exact fun _ _ _ hv => hv
  · intro v path depth _ hdepth hv x hx
    rcases List.mem_append.1 hx with hx | hx
    · exact hv x hx
    · rw [List.mem_singleton.1 hx]
      exact hdepth

/-- Some paths and those that were opened are different, and all of them were met. -/
def OpenedOnce (top : List String) (v : Visit) : Prop :=
  (top ++ v.openedPaths).Nodup ∧ ∀ path ∈ top ++ v.openedPaths, path ∈ v.seen

theorem OpenedOnce.met {top : List String} (h : OpenedOnce top v) (path : String) :
    OpenedOnce top (v.met path) :=
  ⟨h.1, fun p hp => List.mem_cons_of_mem _ (h.2 p hp)⟩

/-- A file that is new is opened for the first time. -/
theorem OpenedOnce.enter {top : List String} (h : OpenedOnce top v) {path : String}
    (hnew : normalizePath path ∉ v.seen) (depth : Nat) : OpenedOnce top (v.enter path depth) := by
  have hfresh : normalizePath path ∉ top ++ v.openedPaths := fun hmem => hnew (h.2 _ hmem)
  unfold OpenedOnce
  rw [v.openedPaths_enter, ← List.append_assoc]
  refine ⟨List.nodup_append_comm.1 (List.nodup_cons.2 ⟨hfresh, h.1⟩), fun p hp => ?_⟩
  rcases List.mem_append.1 hp with hp | hp
  · exact List.mem_cons_of_mem _ (h.2 p hp)
  · rw [List.mem_singleton.1 hp]
    exact List.mem_cons_self

/-- A walk opens no file twice. -/
theorem Walk.openedOnce {top : List String} (h : Walk u room cuts rest v r w)
    (hv : OpenedOnce top v) : OpenedOnce top w :=
  h.keeps (fun _ path _ hv => hv.met path) (fun _ _ depth hnew _ hv => hv.enter hnew depth) hv

/-- A file that is opened with `room` levels left below it. -/
theorem nested_cons {store : Store} {text : List Char} {all : Include.Cuts} {cut : Include.Cut}
    (file : String) {inner behind : List (String × Nat)} (hroom : room + 1 ≤ maxIncludeDepth)
    (hscan : Include.scan text = .ok all) (hcut : cut ∈ all.cuts)
    (hopen : inner ≠ [] → store cut.directive.path = .ok file)
    (hinner : Nested store (maxIncludeDepth - room) file.toList inner)
    (hbehind : Nested store (maxIncludeDepth - (room + 1)) text behind) :
    Nested store (maxIncludeDepth - (room + 1)) text
      ((cut.directive.path, maxIncludeDepth - room) :: inner ++ behind) := by
  have hdepth : maxIncludeDepth - room = maxIncludeDepth - (room + 1) + 1 := by omega
  rw [hdepth] at hinner ⊢
  exact .cons hscan hcut hopen hinner hbehind

/-- The files that a walk opens are nested as the directives of the text ask for, below the depth of
the file that is walked through. -/
theorem Walk.nested {store : Store} (hstore : u.store = some store)
    (h : Walk u room cuts rest v r w) (hroom : room ≤ maxIncludeDepth) {text : List Char}
    {all : Include.Cuts} (hscan : Include.scan text = .ok all)
    (hcuts : ∀ cut ∈ cuts, cut ∈ all.cuts) :
    ∃ new, w.opened = v.opened ++ new ∧ Nested store (maxIncludeDepth - room) text new := by
  induction h generalizing text all with
  | done | noStore | tooDeep => exact ⟨[], (List.append_nil _).symm, .nil⟩
  | drop _ _ _ ih => exact ih hroom hscan (List.forall_mem_cons.1 hcuts).2
  | notFound | malformed =>
    have hcut := (List.forall_mem_cons.1 hcuts).1
    exact ⟨_, rfl, nested_cons "" hroom hscan hcut (fun h => absurd rfl h) .nil .nil⟩
  | @stopped _ cut _ _ v store' text' _ _ _ hstore' _ hopen hinner _ ih =>
    cases hstore.symm.trans hstore'
    obtain ⟨inner, hopened, hnested⟩ := ih (Nat.le_of_succ_le hroom) hinner fun _ hcut => hcut
    have hcut := (List.forall_mem_cons.1 hcuts).1
    refine ⟨_, ?_, nested_cons text' hroom hscan hcut (fun _ => hopen) hnested .nil⟩
    rw [hopened]
    simp [Visit.enter]
  | @inline _ cut _ _ v store' text' _ _ _ _ _ hstore' _ hopen hinner _ _ ihfile ihtail =>
    cases hstore.symm.trans hstore'
    obtain ⟨hcut, hcuts⟩ := List.forall_mem_cons.1 hcuts
    obtain ⟨inner, hopened, hnested⟩ :=
      ihfile (Nat.le_of_succ_le hroom) hinner fun _ hcut => hcut
    obtain ⟨behind, hopened', hbehind⟩ := ihtail hroom hscan hcuts
    refine ⟨_, ?_, nested_cons text' hroom hscan hcut (fun _ => hopen) hnested hbehind⟩
    rw [hopened', hopened]
    simp [Visit.enter]

/-! ## Stores of few files -/

theorem scanFile_ne_includeDepth {name : String} {source : List Char} {shader path : String}
    {limit : Nat} :
    u.scanFile name source ≠ .error (.failed (.includeDepth shader path limit)) := by
  unfold scanFile
  split <;> simp

/-- The limit is not reached while there are more levels than files that can be opened. The files
around a directive are different and can all be opened: they are on the stack. -/
theorem Walk.ne_includeDepth {keys stack : List String}
    (hkeys : ∀ store ∈ u.store, ∀ path text, store path = .ok text → normalizePath path ∈ keys)
    (hfew : keys.length < maxIncludeDepth) (h : Walk u room cuts rest v r w) (hnodup : stack.Nodup)
    (hstack : stack ⊆ keys) (hseen : stack ⊆ v.seen)
    (hlength : stack.length + room = maxIncludeDepth) {shader path : String} {limit : Nat} :
    r ≠ .error (.failed (.includeDepth shader path limit)) := by
  induction h generalizing stack with
  | done | noStore | notFound => simp
  | drop _ _ _ ih => exact fun he => ih hnodup hstack hseen hlength (map_eq_error_iff.1 he)
  | tooDeep =>
    have hle := List.Nodup.length_le_of_subset hnodup hstack
    omega
  | malformed _ _ _ hscan =>
    intro he
    rw [Except.error.inj he] at hscan
    exact scanFile_ne_includeDepth hscan
  | stopped hstore hnew hopen _ _ ih =>
    have hkey := hkeys _ hstore _ _ hopen
    have hfresh := fun hmem => hnew (hseen hmem)
    refine ih (List.nodup_cons.2 ⟨hfresh, hnodup⟩) (List.cons_subset.2 ⟨hkey, hstack⟩)
      (List.cons_subset_cons _ hseen) ?_
    rw [List.length_cons]
    omega
  | inline _ _ _ _ hfile _ _ ihtail =>
    intro he
    refine ihtail hnodup hstack ?_ hlength (map_eq_error_iff.1 he)
    have hkept := List.Subset.trans (List.subset_cons_self ..) hfile.seen_subset
    exact List.Subset.trans hseen hkept

/-- Every file that is opened is one of those that can be, but for a last one that stops the run. -/
theorem Walk.opened_subset {keys : List String}
    (hkeys : ∀ store ∈ u.store, ∀ path text, store path = .ok text → normalizePath path ∈ keys)
    (h : Walk u room cuts rest v r w) (hv : v.openedPaths ⊆ keys) :
    w.openedPaths.dropLast ⊆ keys ∧ ∀ e, r = .ok e → w.openedPaths ⊆ keys := by
  have henter : ∀ {v : Visit} {store path text depth}, u.store = some store →
      store path = .ok text → v.openedPaths ⊆ keys → (v.enter path depth).openedPaths ⊆ keys := by
    intro v store path text depth hstore hopen hv
    rw [Visit.openedPaths_enter]
    have hkey := hkeys store hstore path text hopen
    exact List.append_subset.2 ⟨hv, List.cons_subset.2 ⟨hkey, List.nil_subset _⟩⟩
  induction h with
  | done => exact ⟨List.Subset.trans (List.dropLast_subset _) hv, fun _ _ => hv⟩
  | noStore | tooDeep =>
    exact ⟨List.Subset.trans (List.dropLast_subset _) hv, fun _ he => by cases he⟩
  | drop _ _ _ ih =>
    obtain ⟨hlast, hok⟩ := ih hv
    refine ⟨hlast, fun e he => ?_⟩
    obtain ⟨tail, htail, -⟩ := map_eq_ok_iff.1 he
    exact hok tail htail
  | notFound | malformed =>
    rw [Visit.openedPaths_enter, List.dropLast_concat]
    exact ⟨hv, fun _ he => by cases he⟩
  | stopped hstore _ hopen _ _ ih =>
    exact ⟨(ih (henter hstore hopen hv)).1, fun _ he => by cases he⟩
  | inline hstore _ hopen _ _ _ ihfile ihtail =>
    obtain ⟨hlast, hok⟩ := ihtail ((ihfile (henter hstore hopen hv)).2 _ rfl)
    refine ⟨hlast, fun e he => ?_⟩
    obtain ⟨tail, htail, -⟩ := map_eq_ok_iff.1 he
    exact hok tail htail

/-! ## Runs -/

theorem opened_startVisit (path : Option String) : (startVisit path).opened = [] := by
  cases path <;> rfl

theorem openedOnce_startVisit (path : Option String) :
    OpenedOnce (startVisit path).seen (startVisit path) := by
  cases path with
  | none => exact ⟨List.nodup_nil, fun _ hp => hp⟩
  | some path => exact ⟨List.nodup_singleton _, fun _ hp => hp⟩

/-- What a walk through a source keeps, from the start. -/
theorem WalkFile.openedOnce {path : Option String} {name : String} {source : List Char}
    (h : u.WalkFile room name source (startVisit path) r w) :
    OpenedOnce (startVisit path).seen w ∧ ∀ x ∈ w.opened, x.2 ≤ maxIncludeDepth := by
  have hstart : ∀ x ∈ (startVisit path).opened, x.2 ≤ maxIncludeDepth := by
    rw [opened_startVisit]
    exact fun _ hx => absurd hx List.not_mem_nil
  cases h with
  | malformed => exact ⟨openedOnce_startVisit path, hstart⟩
  | walk _ hwalk => exact ⟨hwalk.openedOnce (openedOnce_startVisit path), hwalk.depth_le hstart⟩

/-- A file is opened for a directive of the file above it. -/
theorem WalkFile.nested {path : Option String} {name : String} {source : List Char} {store : Store}
    (hstore : u.store = some store)
    (h : u.WalkFile maxIncludeDepth name source (startVisit path) r w) :
    Nested store 0 source w.opened := by
  cases h with
  | malformed =>
    rw [opened_startVisit]
    exact .nil
  | walk hscan hwalk =>
    obtain ⟨new, hopened, hnested⟩ := hwalk.nested hstore (Nat.le_refl _) hscan fun _ hcut => hcut
    rw [opened_startVisit, List.nil_append] at hopened
    rw [Nat.sub_self] at hnested
    rwa [hopened]

/-- The normal paths that a list of files has. -/
def keys (files : List (String × String)) : List String :=
  (files.map fun f => normalizePath f.1).dedup

theorem mem_keys_of_ofFiles {files : List (String × String)}
    (hstore : u.store = some (.ofFiles files)) :
    ∀ store ∈ u.store, ∀ path text, store path = .ok text → normalizePath path ∈ keys files := by
  intro store hmem path text hopen
  cases hstore.symm.trans hmem
  obtain ⟨f, hf, hpath, -⟩ := Store.mem_of_ofFiles hopen
  rw [keys, List.mem_dedup, ← hpath]
  exact List.mem_map_of_mem hf

/-- Files that are fewer than the limit never reach it. -/
theorem WalkFile.ne_includeDepth {files : List (String × String)} {name : String}
    {source : List Char} (hstore : u.store = some (.ofFiles files))
    (hfew : (keys files).length < maxIncludeDepth)
    (h : u.WalkFile maxIncludeDepth name source v r w) {shader path : String} {limit : Nat} :
    r ≠ .error (.failed (.includeDepth shader path limit)) := by
  cases h with
  | malformed hscan =>
    intro he
    rw [Except.error.inj he] at hscan
    exact scanFile_ne_includeDepth hscan
  | walk _ hwalk =>
    exact hwalk.ne_includeDepth (mem_keys_of_ofFiles hstore) hfew List.nodup_nil
      (List.nil_subset _) (List.nil_subset _) (Nat.zero_add _)

/-- One file more than the store has can be asked for, which is the one that fails. -/
theorem WalkFile.length_opened_le {files : List (String × String)} {path : Option String}
    {name : String} {source : List Char} (hstore : u.store = some (.ofFiles files))
    (h : u.WalkFile room name source (startVisit path) r w) :
    w.opened.length ≤ (keys files).length + 1 := by
  have hnodup : w.openedPaths.Nodup := h.openedOnce.1.1.of_append_right
  have hsubset : w.openedPaths.dropLast ⊆ keys files := by
    have hstart : (startVisit path).openedPaths = [] := by
      rw [Visit.openedPaths, opened_startVisit, List.map_nil]
    cases h with
    | malformed =>
      rw [hstart]
      exact List.nil_subset _
    | walk _ hwalk =>
      refine (hwalk.opened_subset (mem_keys_of_ofFiles hstore) ?_).1
      rw [hstart]
      exact List.nil_subset _
  have hle := (hnodup.sublist (List.dropLast_sublist _)).length_le_of_subset hsubset
  rw [List.length_dropLast, Visit.openedPaths, List.length_map] at hle
  omega

/-- Every path is opened at most once, up to spelling, and that of the source not at all; files are
nested no deeper than the limit. So with a store of fewer files than levels the limit is not
reached, however the files include each other, and the number of files bounds that of the paths that
are opened, of which only the last can be missing. -/
theorem run_opened (u : Unroller) (source : String) (path : Option String) :
    (u.run source path).2.openedPaths.Nodup ∧
      (∀ p ∈ path, normalizePath p ∉ (u.run source path).2.openedPaths) ∧
      (∀ x ∈ (u.run source path).2.opened, x.2 ≤ maxIncludeDepth) ∧
      (∀ store ∈ u.store, Nested store 0 source.toList (u.run source path).2.opened) ∧
      ∀ files, u.store = some (.ofFiles files) → (keys files).length < maxIncludeDepth →
        (∀ shader file limit,
          u.unroll source path ≠ .error (.failed (.includeDepth shader file limit))) ∧
        (u.run source path).2.opened.length ≤ (keys files).length + 1 := by
  obtain ⟨r, w, hrun, hwalk⟩ := run_walks u source path
  rw [unroll, hrun]
  obtain ⟨⟨hnodup, -⟩, hdepth⟩ := hwalk.openedOnce
  refine ⟨hnodup.of_append_right, ?_, hdepth, fun store hstore => hwalk.nested hstore, ?_⟩
  · rintro p ⟨⟩ hmem
    exact (List.nodup_cons.1 hnodup).1 hmem
  intro files hstore hfew
  refine ⟨fun shader file limit he => ?_, hwalk.length_opened_le hstore⟩
  exact hwalk.ne_includeDepth hstore hfew (map_eq_error_iff.1 (map_eq_error_iff.1 he))

/-- Files that include themselves, each other and the source, in several spellings. -/
def circular : List (String × String) :=
  [("a", "#include \"./a\"\n#include \"b\"\n#include \"./main\""),
    ("./x/../b", "#include \"a\"\n#include <c//d>\n#include \"b\""), ("c/d", "#include \"./b\"")]

/-- Files that include each other are opened once. -/
theorem run_opened_circular :
    (Unroller.run ⟨"s", some (.ofFiles circular), true⟩ "#include \"c\\d\"\n#include \"x/../a\""
        (some "main")).2.opened = [("c\\d", 1), ("./b", 2), ("a", 3)] ∧
      ∀ shader file limit,
        Unroller.unroll ⟨"s", some (.ofFiles circular), true⟩
          "#include \"c\\d\"\n#include \"x/../a\"" (some "main") ≠
            .error (.failed (.includeDepth shader file limit)) := by
  refine ⟨by decide +kernel, ?_⟩
  have hopened := run_opened ⟨"s", some (.ofFiles circular), true⟩
    "#include \"c\\d\"\n#include \"x/../a\"" (some "main")
  exact (hopened.2.2.2.2 circular rfl (by decide +kernel)).1

end Unroller

end ShaderBind.Source
