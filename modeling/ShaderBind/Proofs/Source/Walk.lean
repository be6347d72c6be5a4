import ShaderBind.Proofs.Source.Scanning
import ShaderBind.Proofs.Source.Unrolling

/-!
# Walks through included files

What an unrolling does, without the order in which it is computed. A file that is unrolled comes to
a tree (`Expansion`): each of its directives is dropped or has a file of its own in its place. The
pieces that are written are those of the tree (`Expansion.pieces`).

`Walk` has one rule for everything that can happen at a directive: the path was met before, there is
no room for another level, the file cannot be opened or scanned, the file stops the run, or it is
put in and the walk goes on behind. Every run is a walk (`run_walks`), also one that stops, so that
what holds of a run is shown rule by rule.
-/

namespace ShaderBind.Source

/-! ## Files and pieces -/

/-- What a store of files opens is one of the files, found under its normal path. -/
theorem Store.mem_of_ofFiles {files : List (String × String)} {path text : String}
    (h : ofFiles files path = .ok text) :
    ∃ f ∈ files, normalizePath f.1 = normalizePath path ∧ f.2 = text := by
  unfold ofFiles at h
  split at h
  next hlookup =>
    cases h
    obtain ⟨f, hfind, rfl⟩ := Option.map_eq_some_iff.1 hlookup
    have hmem := List.mem_reverse.1 (List.mem_of_find?_eq_some hfind)
    exact ⟨f, hmem, by simpa using List.find?_some hfind, rfl⟩
  · cases h

theorem Piece.render_append (ps qs : List Piece) : render (ps ++ qs) = render ps ++ render qs :=
  List.flatMap_append

theorem Piece.render_cons (p : Piece) (ps : List Piece) : render (p :: ps) = p.text ++ render ps :=
  List.flatMap_cons

theorem Piece.render_singleton (p : Piece) : render [p] = p.text :=
  List.flatMap_singleton ..

theorem Piece.text_lineMarker (n : Nat) :
    (lineMarker n).text = "#line ".toList ++ n.repr.toList ++ ['\n'] := by
  simp [text, toString]

/-- What is written in front of an inlined file. -/
def Unroller.frameFront (u : Unroller) : List Piece :=
  if u.lineMarkers then [.lineBreak, .lineMarker 1] else []

/-- What is written behind an inlined file. -/
def Unroller.frameBack (u : Unroller) (line : Nat) (pieces : List Piece) : List Piece :=
  if u.lineMarkers then
    (if Text.endsLine (Piece.render pieces) then [] else [.lineBreak]) ++ [.lineMarker line]
  else []

theorem Unroller.framed_eq (u : Unroller) (line : Nat) (pieces : List Piece) :
    u.framed line pieces = u.frameFront ++ pieces ++ u.frameBack line pieces := by
  cases hmarkers : u.lineMarkers <;> simp [framed, frameFront, frameBack, hmarkers]

/-! ## Trees -/

/-- What a file comes to from some place of it on: text up to the next directive, for the directive
nothing or a file, and then the same behind it. -/
inductive Expansion
  | rest (text : List Char)
  | dropped (cut : Include.Cut) (tail : Expansion)
  | inlined (cut : Include.Cut) (file tail : Expansion)

namespace Expansion

/-- The text that was expanded, cut at its directives. -/
def cuts : Expansion → Include.Cuts
  | rest text => ⟨[], text⟩
  | dropped cut tail => tail.cuts.cons cut
  | inlined cut _ tail => tail.cuts.cons cut

/-- The pieces that are written for a file with a name, from a line of it on. -/
def pieces (u : Unroller) : (name : String) → (line : Nat) → Expansion → List Piece
  | name, line, rest text => [.copied name line text]
  | name, line, dropped cut tail =>
    .copied name line cut.before :: tail.pieces u name cut.directive.line
  | name, line, inlined cut file tail =>
    .copied name line cut.before ::
      u.framed cut.directive.line (file.pieces u (normalizePath cut.directive.path) 1) ++
        tail.pieces u name cut.directive.line

/-- Every file in the tree is the one that the store has under the path of its directive. -/
def Served (store : Option Store) : Expansion → Prop
  | rest _ => True
  | dropped _ tail => tail.Served store
  | inlined cut file tail =>
    (∃ s ∈ store, ∃ text, s cut.directive.path = .ok text ∧
      Include.scan text.toList = .ok file.cuts) ∧ file.Served store ∧ tail.Served store

end Expansion

/-! ## Walks -/

/-- The visit after a path was met for the first time. -/
def Visit.met (v : Visit) (path : String) : Visit :=
  { v with seen := path :: v.seen }

/-- The visit after a file was met for the first time and opened. -/
def Visit.enter (v : Visit) (path : String) (depth : Nat) : Visit :=
  { seen := normalizePath path :: v.seen, opened := v.opened ++ [(path, depth)] }

namespace Unroller

/-- A walk over the directives of a file that has `room` levels left below it: from one visit to
another, with the tree or what stopped it. -/
inductive Walk (u : Unroller) :
    (room : Nat) → List Include.Cut → (rest : List Char) → Visit → Except Stop Expansion →
      Visit → Prop
  | done {room rest v} : Walk u room [] rest v (.ok (.rest rest)) v
  | noStore {room cut cuts rest v} (hstore : u.store = none) :
      Walk u room (cut :: cuts) rest v (.error (.failed (.noSourceStore u.shader))) v
  | drop {room cut cuts rest v store r w} (hstore : u.store = some store)
      (hseen : normalizePath cut.directive.path ∈ v.seen) (htail : Walk u room cuts rest v r w) :
      Walk u room (cut :: cuts) rest v (r.map (.dropped cut)) w
  | tooDeep {cut cuts rest v store} (hstore : u.store = some store)
      (hnew : normalizePath cut.directive.path ∉ v.seen) :
      Walk u 0 (cut :: cuts) rest v
        (.error (.failed
          (.includeDepth u.shader (normalizePath cut.directive.path) maxIncludeDepth)))
        (v.met (normalizePath cut.directive.path))
  | notFound {room cut cuts rest v store e} (hstore : u.store = some store)
      (hnew : normalizePath cut.directive.path ∉ v.seen)
      (hopen : store cut.directive.path = .error e) :
      Walk u (room + 1) (cut :: cuts) rest v
        (.error (.failed (.sourceNotFound u.shader cut.directive.path)))
        (v.enter cut.directive.path (maxIncludeDepth - room))
  | malformed {room cut cuts rest v store text e} (hstore : u.store = some store)
      (hnew : normalizePath cut.directive.path ∉ v.seen)
      (hopen : store cut.directive.path = .ok text)
      (hscan : u.scanFile (normalizePath cut.directive.path) text.toList = .error e) :
      Walk u (room + 1) (cut :: cuts) rest v (.error e)
        (v.enter cut.directive.path (maxIncludeDepth - room))
  | stopped {room cut cuts rest v store text inner e w} (hstore : u.store = some store)
      (hnew : normalizePath cut.directive.path ∉ v.seen)
      (hopen : store cut.directive.path = .ok text)
      (hscan : Include.scan text.toList = .ok inner)
      (hfile : Walk u room inner.cuts inner.rest
        (v.enter cut.directive.path (maxIncludeDepth - room)) (.error e) w) :
      Walk u (room + 1) (cut :: cuts) rest v (.error e) w
  | inline {room cut cuts rest v store text inner file v' r w} (hstore : u.store = some store)
      (hnew : normalizePath cut.directive.path ∉ v.seen)
      (hopen : store cut.directive.path = .ok text)
      (hscan : Include.scan text.toList = .ok inner)
      (hfile : Walk u room inner.cuts inner.rest
        (v.enter cut.directive.path (maxIncludeDepth - room)) (.ok file) v')
      (htail : Walk u (room + 1) cuts rest v' r w) :
      Walk u (room + 1) (cut :: cuts) rest v (r.map (.inlined cut file)) w

/-- A walk through a file: it cannot be scanned, or its directives are walked over. -/
inductive WalkFile (u : Unroller) (room : Nat) (name : String) (source : List Char) (v : Visit) :
    Except Stop Expansion → Visit → Prop
  | malformed {e} (hscan : u.scanFile name source = .error e) :
      WalkFile u room name source v (.error e) v
  | walk {cuts r w} (hscan : Include.scan source = .ok cuts)
      (hwalk : Walk u room cuts.cuts cuts.rest v r w) : WalkFile u room name source v r w

variable {u : Unroller} {v w : Visit}

/-- The tree of a walk is made of the file that was walked through and of files of the store. -/
theorem Walk.served {room : Nat} {cuts : List Include.Cut} {rest : List Char}
    {r : Except Stop Expansion} (h : Walk u room cuts rest v r w) {e : Expansion}
    (he : r = .ok e) : e.cuts = ⟨cuts, rest⟩ ∧ e.Served u.store := by
  induction h generalizing e with
  | done =>
    cases he
    exact ⟨rfl, trivial⟩
  | drop _ _ _ ih =>
    obtain ⟨tail, htail, rfl⟩ := map_eq_ok_iff.1 he
    obtain ⟨hcuts, hserved⟩ := ih htail
    exact ⟨by rw [Expansion.cuts, hcuts]; rfl, hserved⟩
  | inline hstore _ hopen hscan _ _ ihfile ihtail =>
    obtain ⟨tail, htail, rfl⟩ := map_eq_ok_iff.1 he
    obtain ⟨hcuts, hserved⟩ := ihtail htail
    obtain ⟨hinner, hfiles⟩ := ihfile rfl
    refine ⟨by rw [Expansion.cuts, hcuts]; rfl, ⟨_, hstore, _, hopen, ?_⟩, hfiles, hserved⟩
    rw [hscan, hinner]
  | noStore | tooDeep | notFound | malformed | stopped => cases he

theorem WalkFile.served {room : Nat} {name : String} {source : List Char} {e : Expansion}
    (h : u.WalkFile room name source v (.ok e) w) :
    Include.scan source = .ok e.cuts ∧ e.Served u.store := by
  cases h with
  | walk hscan hwalk =>
    obtain ⟨hcuts, hserved⟩ := hwalk.served rfl
    exact ⟨by rw [hscan, hcuts], hserved⟩

/-! ## Runs are walks -/

/-- What is put in the place of a directive of a file with `room` levels left below it. -/
def inlineAt (u : Unroller) (store : Store) (room : Nat) (directive : Directive) :
    Run (List Piece) := do
  let path := normalizePath directive.path
  if ← meet path then
    match room with
    | 0 => throw (.failed (.includeDepth u.shader path maxIncludeDepth))
    | room + 1 =>
      let text ← u.openFile store directive.path (maxIncludeDepth - room)
      let pieces ← u.file room path text.toList
      return u.framed directive.line pieces
  else return []

theorem run_inlineAt_of_seen (u : Unroller) (store : Store) (room : Nat) {d : Directive}
    (h : normalizePath d.path ∈ v.seen) : (u.inlineAt store room d).run.run v = (.ok [], v) := by
  have hmeet : (meet (normalizePath d.path)).run.run v = (.ok false, v) := by
    rw [run_meet, if_pos h]
  unfold inlineAt
  rw [run_bind_of_ok hmeet]
  rfl

theorem run_inlineAt_of_new (u : Unroller) (store : Store) (room : Nat) {d : Directive}
    (h : normalizePath d.path ∉ v.seen) :
    (u.inlineAt store room d).run.run v =
      (match room with
        | 0 => throw (.failed (.includeDepth u.shader (normalizePath d.path) maxIncludeDepth))
        | room + 1 => do
          let text ← u.openFile store d.path (maxIncludeDepth - room)
          let pieces ← u.file room (normalizePath d.path) text.toList
          return u.framed d.line pieces :
        Run (List Piece)).run.run (v.met (normalizePath d.path)) := by
  have hmeet : (meet (normalizePath d.path)).run.run v =
      (.ok true, v.met (normalizePath d.path)) := by
    rw [run_meet, if_neg h]
    rfl
  unfold inlineAt
  rw [run_bind_of_ok hmeet]
  rfl

theorem run_openFile_of_ok (u : Unroller) {store : Store} {path text : String}
    (h : store path = .ok text) (depth : Nat) :
    (u.openFile store path depth).run.run (v.met (normalizePath path)) =
      (.ok text, v.enter path depth) := by
  rw [run_openFile, h]
  rfl

theorem run_openFile_of_error (u : Unroller) {store : Store} {path : String} {e : OpenError}
    (h : store path = .error e) (depth : Nat) :
    (u.openFile store path depth).run.run (v.met (normalizePath path)) =
      (.error (.failed (.sourceNotFound u.shader path)), v.enter path depth) := by
  rw [run_openFile, h]
  rfl

section

variable {name : String} {inline : Directive → Run (List Piece)} {line : Nat} {cut : Include.Cut}
  {cuts : List Include.Cut} {rest : List Char}

theorem run_splice_of_ok {v' : Visit} {inlined : List Piece} {r : Except Stop (List Piece)}
    (hinline : (inline cut.directive).run.run v = (.ok inlined, v'))
    (htail : (splice name inline cut.directive.line cuts rest).run.run v' = (r, w)) :
    (splice name inline line (cut :: cuts) rest).run.run v =
      (r.map fun tail => .copied name line cut.before :: inlined ++ tail, w) := by
  rw [splice, run_bind_of_ok hinline]
  cases r with
  | error e => exact run_bind_of_error htail
  | ok tail => exact run_bind_of_ok htail

theorem run_splice_of_error {e : Stop}
    (hinline : (inline cut.directive).run.run v = (.error e, w)) :
    (splice name inline line (cut :: cuts) rest).run.run v = (.error e, w) := by
  rw [splice]
  exact run_bind_of_error hinline

end

theorem scanFile_eq_ok {name : String} {source : List Char} {cuts : Include.Cuts}
    (h : u.scanFile name source = .ok cuts) : Include.scan source = .ok cuts := by
  unfold scanFile at h
  split at h
  next hscan =>
    cases h
    exact hscan
  · cases h
  · cases h

theorem run_file_of_scanFile {room : Nat} {name : String} {source : List Char}
    {cuts : Include.Cuts} (hscan : u.scanFile name source = .ok cuts) (v : Visit) :
    (u.file room name source).run.run v =
      (if cuts.cuts.isEmpty then pure [.copied name 1 source]
      else
        match u.store with
        | none => throw (.failed (.noSourceStore u.shader))
        | some store => splice name (u.inlineAt store room) 1 cuts.cuts cuts.rest :
        Run (List Piece)).run.run v := by
  have hrun : (ExceptT.mk (pure (u.scanFile name source)) : Run Include.Cuts).run.run v =
      (.ok cuts, v) := by
    rw [hscan]
    rfl
  unfold Unroller.file
  rw [run_bind_of_ok hrun]
  rfl

/-- A text without directives is its own unrolling; no store is needed. -/
theorem unroll_of_find_eq_nil {source : String} (h : Include.find source = .ok [])
    (path : Option String) : u.unroll source path = .ok source := by
  obtain ⟨cuts, hscan, hcuts⟩ := bind_eq_ok_iff.1 h
  have hnil : cuts.cuts = [] := by simpa using pure_eq_ok_iff.1 hcuts
  have hfile : ∀ name v, (u.file maxIncludeDepth name source.toList).run.run v =
      (.ok [.copied name 1 source.toList], v) := by
    intro name v
    have hok : u.scanFile name source.toList = .ok cuts := by
      rw [scanFile, hscan]
    rw [run_file_of_scanFile hok, hnil]
    rfl
  cases path <;> rw [unroll, run, hfile] <;>
    simp [Except.map, Piece.render, Piece.text]

/-- A run of the file is a walk through it, and gives the pieces of the tree. -/
def RunWalks (u : Unroller) (room : Nat) (name : String) (source : List Char) : Prop :=
  ∀ v, ∃ r w, (u.file room name source).run.run v = (r.map (Expansion.pieces u name 1), w) ∧
    u.WalkFile room name source v r w

/-- The directives of a file are walked over in turn, if the runs of the files below are walks. -/
theorem run_splice_walks {store : Store} (hstore : u.store = some store) (room : Nat)
    (hbelow : ∀ k, room = k + 1 → ∀ name source, u.RunWalks k name source) (name : String)
    (line : Nat) (cuts : List Include.Cut) (rest : List Char) (v : Visit) :
    ∃ r w, (splice name (u.inlineAt store room) line cuts rest).run.run v =
        (r.map (Expansion.pieces u name line), w) ∧ u.Walk room cuts rest v r w := by
  induction cuts generalizing line v with
  | nil => exact ⟨.ok (.rest rest), v, rfl, .done⟩
  | cons cut cuts ih =>
    by_cases hseen : normalizePath cut.directive.path ∈ v.seen
    · obtain ⟨r, w, hrun, hwalk⟩ := ih cut.directive.line v
      refine ⟨r.map (.dropped cut), w, ?_, .drop hstore hseen hwalk⟩
      rw [run_splice_of_ok (run_inlineAt_of_seen u store room hseen) hrun, map_map_except,
        map_map_except]
      rfl
    -- a new path: each step that can stop the run is one of the rules
    have hinline := run_inlineAt_of_new u store room hseen
    cases room with
    | zero => exact ⟨_, _, run_splice_of_error hinline, .tooDeep hstore hseen⟩
    | succ room =>
      cases hopen : store cut.directive.path with
      | error e =>
        rw [run_bind_of_error (run_openFile_of_error u hopen _)] at hinline
        exact ⟨_, _, run_splice_of_error hinline, .notFound hstore hseen hopen⟩
      | ok text =>
        rw [run_bind_of_ok (run_openFile_of_ok u hopen _)] at hinline
        obtain ⟨rf, v', hfile, hwalk⟩ := hbelow room rfl (normalizePath cut.directive.path)
          text.toList (v.enter cut.directive.path (maxIncludeDepth - room))
        cases hwalk with
        | malformed hscan =>
          rw [run_bind_of_error hfile] at hinline
          exact ⟨_, _, run_splice_of_error hinline, .malformed hstore hseen hopen hscan⟩
        | walk hscan hwalk =>
          cases rf with
          | error e =>
            rw [run_bind_of_error hfile] at hinline
            exact ⟨_, _, run_splice_of_error hinline, .stopped hstore hseen hopen hscan hwalk⟩
          | ok file =>
            rw [run_bind_of_ok hfile] at hinline
            obtain ⟨r, w, hrun, htail⟩ := ih cut.directive.line v'
            refine ⟨r.map (.inlined cut file), w, ?_,
              .inline hstore hseen hopen hscan hwalk htail⟩
            rw [run_splice_of_ok hinline hrun, map_map_except, map_map_except]
            rfl

/-- Every run of a file is a walk: by induction on the levels that are left. -/
theorem run_file_walks (u : Unroller) (room : Nat) (name : String) (source : List Char) :
    u.RunWalks room name source := by
  induction room using Nat.strongRecOn generalizing name source with
  | ind room ih =>
    intro v
    cases hscan : u.scanFile name source with
    | error e =>
      refine ⟨.error e, v, ?_, .malformed hscan⟩
      unfold Unroller.file
      exact run_bind_of_error (by rw [hscan]; rfl)
    | ok cuts =>
      have hcuts := scanFile_eq_ok hscan
      rw [run_file_of_scanFile hscan]
      rcases hlist : cuts.cuts with _ | ⟨cut, tail⟩
      · have hrest : cuts.rest = source := by
          have hsource := (Include.scanFrom_eq_ok_iff.1 hcuts).source_eq
          rwa [Include.Cuts.source, hlist] at hsource
        refine ⟨.ok (.rest source), v, rfl, .walk hcuts ?_⟩
        rw [hlist, hrest]
        exact .done
      · cases hstore : u.store with
        | none =>
          refine ⟨.error (.failed (.noSourceStore u.shader)), v, rfl, .walk hcuts ?_⟩
          rw [hlist]
          exact .noStore hstore
        | some store =>
          have hbelow : ∀ k, room = k + 1 → ∀ name source, u.RunWalks k name source :=
            fun k hk => ih k (hk ▸ Nat.lt_succ_self k)
          obtain ⟨r, w, hrun, hwalk⟩ :=
            run_splice_walks hstore room hbelow name 1 cuts.cuts cuts.rest v
          refine ⟨r, w, ?_, .walk hcuts hwalk⟩
          rw [hlist] at hrun
          exact hrun

/-- The name that a source has in messages. -/
def sourceName : Option String → String
  | some path => normalizePath path
  | none => "<source>"

/-- The visit that an unrolling begins with: the path of the source itself counts as met. -/
def startVisit : Option String → Visit
  | some path => { seen := [normalizePath path] }
  | none => {}

/-- Every run is a walk through the source, and gives the pieces of the tree. -/
theorem run_walks (u : Unroller) (source : String) (path : Option String) :
    ∃ r w, u.run source path = (r.map (Expansion.pieces u (sourceName path) 1), w) ∧
      u.WalkFile maxIncludeDepth (sourceName path) source.toList (startVisit path) r w := by
  cases path with
  | none => exact run_file_walks u maxIncludeDepth "<source>" source.toList {}
  | some path =>
    exact run_file_walks u maxIncludeDepth (normalizePath path) source.toList
      { seen := [normalizePath path] }

/-- The tree of an unrolling that goes well. -/
theorem exists_expansion {source text : String} {path : Option String}
    (h : u.unroll source path = .ok text) :
    ∃ e : Expansion, Include.scan source.toList = .ok e.cuts ∧ e.Served u.store ∧
      (u.run source path).1 = .ok (e.pieces u (sourceName path) 1) ∧
      text = String.ofList (Piece.render (e.pieces u (sourceName path) 1)) := by
  obtain ⟨r, w, hrun, hwalk⟩ := run_walks u source path
  rw [unroll, hrun, map_map_except] at h
  obtain ⟨e, rfl, rfl⟩ := map_eq_ok_iff.1 h
  exact ⟨e, hwalk.served.1, hwalk.served.2, by rw [hrun]; rfl, rfl⟩

end Unroller

end ShaderBind.Source
