import ShaderBind.Proofs.Outcome
import ShaderBind.Source.Unroll

/-!
# Unrolling with and without line markers

Two unrollers on one store go through a source in step: they meet and open the same files and stop
at the same places, whatever shader they work for and whether or not they set line markers
(`Simulates.file`). What they write down depends on the markers alone: with equal settings it is the
same, and with different ones it is the same exactly if no file was opened, since each opened file
is set off by at least a line break (`unroll_compare`).
-/

namespace ShaderBind.Source

namespace Unroller

/-! ## Runs in step -/

variable {α β γ δ : Type}

/-- Two runs in step: from any visit they come to the same one, and either both stop or their
results are related, by how many files they opened. -/
def InStep (R : Nat → α → β → Prop) (x : Run α) (y : Run β) : Prop :=
  ∀ v, ∃ w n, w.opened.length = v.opened.length + n ∧
    ((∃ a b, x.run.run v = (.ok a, w) ∧ y.run.run v = (.ok b, w) ∧ R n a b) ∨
      ∃ e e', x.run.run v = (.error e, w) ∧ y.run.run v = (.error e', w))

/-- The same result, without an opened file. -/
abbrev Quiet (n : Nat) (a b : α) : Prop :=
  n = 0 ∧ a = b

theorem InStep.pure {R : Nat → α → β → Prop} {a : α} {b : β} (h : R 0 a b) :
    InStep R (Pure.pure a) (Pure.pure b) :=
  fun v => ⟨v, 0, rfl, .inl ⟨a, b, rfl, rfl, h⟩⟩

theorem InStep.throw {R : Nat → α → β → Prop} (e e' : Stop) :
    InStep R (MonadExcept.throw e) (MonadExcept.throw e') :=
  fun v => ⟨v, 0, rfl, .inr ⟨e, e', rfl, rfl⟩⟩

/-- Runs that are in step stay so in sequence. -/
theorem InStep.bind {R : Nat → α → β → Prop} {S : Nat → γ → δ → Prop} {x : Run α} {y : Run β}
    {f : α → Run γ} {g : β → Run δ} (hx : InStep R x y)
    (hf : ∀ n a b, R n a b → InStep (fun k => S (n + k)) (f a) (g b)) :
    InStep S (x >>= f) (y >>= g) := by
  intro v
  obtain ⟨w, n, hn, ⟨a, b, hxv, hyv, hab⟩ | ⟨e, e', hxv, hyv⟩⟩ := hx v
  · obtain ⟨w', k, hk, hend⟩ := hf n a b hab w
    refine ⟨w', n + k, by omega, ?_⟩
    rw [run_bind_of_ok hxv, run_bind_of_ok hyv]
    exact hend
  · exact ⟨w, n, hn, .inr ⟨e, e', run_bind_of_error hxv, run_bind_of_error hyv⟩⟩

/-- A path is met once. -/
theorem run_meet (path : String) (v : Visit) :
    (meet path).run.run v =
      if path ∈ v.seen then (.ok false, v) else (.ok true, { v with seen := path :: v.seen }) := by
  have hstep : (meet path).run.run v = (if path ∈ v.seen then Pure.pure false else do
      set { v with seen := path :: v.seen }
      Pure.pure true : Run Bool).run.run v := rfl
  rw [hstep]
  split <;> rfl

theorem inStep_meet (path : String) : InStep Quiet (meet path) (meet path) := by
  intro v
  rw [run_meet]
  split
  · exact ⟨v, 0, rfl, .inl ⟨false, false, rfl, rfl, rfl, rfl⟩⟩
  · exact ⟨{ v with seen := path :: v.seen }, 0, rfl, .inl ⟨true, true, rfl, rfl, rfl, rfl⟩⟩

/-- What is opened is noted, also when it is not there. -/
theorem run_openFile (u : Unroller) (store : Store) (path : String) (depth : Nat) (v : Visit) :
    (u.openFile store path depth).run.run v =
      ((match store path with
        | .ok text => .ok text
        | .error _ => .error (.failed (.sourceNotFound u.shader path))),
        { v with opened := v.opened ++ [(path, depth)] }) := by
  have hstep : (u.openFile store path depth).run.run v =
      (match store path with
        | .ok text => Pure.pure text
        | .error _ => MonadExcept.throw (.failed (.sourceNotFound u.shader path)) :
          Run String).run.run { v with opened := v.opened ++ [(path, depth)] } := rfl
  rw [hstep]
  split <;> rfl

/-- Opening a file in two runs opens one file, and gives the same text. -/
theorem inStep_openFile (u u' : Unroller) (store : Store) (path : String) (depth : Nat) :
    InStep (fun n a b => n = 1 ∧ a = b) (u.openFile store path depth)
      (u'.openFile store path depth) := by
  intro v
  refine ⟨{ v with opened := v.opened ++ [(path, depth)] }, 1, by simp, ?_⟩
  rw [run_openFile, run_openFile]
  split
  next text _ => exact .inl ⟨text, text, rfl, rfl, rfl, rfl⟩
  next => exact .inr ⟨_, _, rfl, rfl⟩

theorem inStep_scanFile (u u' : Unroller) (file : String) (source : List Char) :
    InStep Quiet (ExceptT.mk (Pure.pure (u.scanFile file source)) : Run Include.Cuts)
      (ExceptT.mk (Pure.pure (u'.scanFile file source))) := by
  intro v
  refine ⟨v, 0, rfl, ?_⟩
  unfold scanFile
  split
  next cuts _ => exact .inl ⟨cuts, cuts, rfl, rfl, rfl, rfl⟩
  next => exact .inr ⟨_, _, rfl, rfl⟩
  next => exact .inr ⟨_, _, rfl, rfl⟩

/-! ## Two unrollers -/

/-- Two unrollers whose results are related by `R`, by the number of files that were opened: they
use one store, the relation is compatible with putting pieces together, and framing an opened file
counts one more. -/
structure Simulates (R : Nat → List Piece → List Piece → Prop) (u u' : Unroller) : Prop where
  store_eq : u'.store = u.store
  refl : ∀ ps, R 0 ps ps
  append : ∀ {m n ps ps' qs qs'}, R m ps ps' → R n qs qs' → R (m + n) (ps ++ qs) (ps' ++ qs')
  framed : ∀ {n ps ps'} line, R n ps ps' → R (n + 1) (u.framed line ps) (u'.framed line ps')

variable {R : Nat → List Piece → List Piece → Prop} {u u' : Unroller}

/-- Texts are spliced in step if their files are inlined in step. -/
theorem Simulates.splice (h : Simulates R u u') {inline inline' : Directive → Run (List Piece)}
    (hinline : ∀ d, InStep R (inline d) (inline' d)) (file : String) (line : Nat)
    (cuts : List Include.Cut) (rest : List Char) :
    InStep R (splice file inline line cuts rest) (splice file inline' line cuts rest) := by
  induction cuts generalizing line with
  | nil => exact .pure (h.refl _)
  | cons cut cuts ih =>
    refine (hinline cut.directive).bind fun n ps ps' hps => ?_
    refine (ih cut.directive.line).bind fun k qs qs' hqs => .pure ?_
    have := h.append (h.refl [.copied file line cut.before]) (h.append hps hqs)
    simpa using this

/-- Two unrollers go through a file in step: by induction on the levels that are left, and inside a
file directive by directive. -/
theorem Simulates.file (h : Simulates R u u') (room : Nat) (name : String) (source : List Char) :
    InStep R (u.file room name source) (u'.file room name source) := by
  induction room using Nat.strongRecOn generalizing name source with
  | ind room ih =>
    unfold Unroller.file
    refine (inStep_scanFile u u' name source).bind ?_
    rintro _ cuts _ ⟨rfl, rfl⟩
    simp only [Nat.zero_add, h.store_eq]
    split
    · exact .pure (h.refl _)
    split
    · exact .throw _ _
    refine h.splice (fun d => ?_) _ _ _ _
    refine (inStep_meet _).bind ?_
    rintro _ new _ ⟨rfl, rfl⟩
    simp only [Nat.zero_add]
    split
    · match room, ih with
      | 0, _ => exact .throw _ _
      | room + 1, ih =>
        refine (inStep_openFile u u' _ d.path _).bind ?_
        rintro _ text _ ⟨rfl, rfl⟩
        refine (ih room (Nat.lt_succ_self room) _ text.toList).bind fun n ps ps' hps => .pure ?_
        have := h.framed d.line hps
        rwa [Nat.add_comm] at this
    · exact .pure (h.refl _)

/-! ## The texts -/

/-- The visit of an unrolling and its pieces, compared for two unrollers. -/
theorem Simulates.run (h : Simulates R u u') (source : String) (path : Option String) :
    ∃ w : Visit,
      ((∃ ps ps', u.run source path = (.ok ps, w) ∧ u'.run source path = (.ok ps', w) ∧
          R w.opened.length ps ps') ∨
        ∃ e e', u.run source path = (.error e, w) ∧ u'.run source path = (.error e', w)) := by
  cases path with
  | none =>
    obtain ⟨w, n, hn, hend⟩ := h.file maxIncludeDepth "<source>" source.toList {}
    rw [show n = w.opened.length by simpa using hn.symm] at hend
    exact ⟨w, hend⟩
  | some path =>
    obtain ⟨w, n, hn, hend⟩ := h.file maxIncludeDepth (normalizePath path) source.toList
      { seen := [normalizePath path] }
    rw [show n = w.opened.length by simpa using hn.symm] at hend
    exact ⟨w, hend⟩

theorem simulates_of_lineMarkers_eq (hstore : u'.store = u.store)
    (hmarkers : u'.lineMarkers = u.lineMarkers) : Simulates (fun _ ps ps' => ps = ps') u u' where
  store_eq := hstore
  refl _ := rfl
  append h h' := by rw [h, h']
  framed line h := by rw [h, framed, framed, hmarkers]

/-- With the markers come more characters, at least one for each file that was opened; without an
opened file there is no difference. -/
def Longer (n : Nat) (ps ps' : List Piece) : Prop :=
  (Piece.render ps').length + n ≤ (Piece.render ps).length ∧ (n = 0 → ps = ps')

theorem length_render_append (ps qs : List Piece) :
    (Piece.render (ps ++ qs)).length = (Piece.render ps).length + (Piece.render qs).length := by
  simp [Piece.render]

/-- With line markers the text is longer and all else is the same. -/
theorem simulates_longer (hstore : u'.store = u.store) (hmarkers : u.lineMarkers = true)
    (hmarkers' : u'.lineMarkers = false) : Simulates Longer u u' where
  store_eq := hstore
  refl _ := ⟨Nat.le_refl _, fun _ => rfl⟩
  append := by
    rintro m n ps ps' qs qs' ⟨hps, hpseq⟩ ⟨hqs, hqseq⟩
    refine ⟨?_, fun h => ?_⟩
    · rw [length_render_append, length_render_append]
      omega
    · rw [hpseq (by omega), hqseq (by omega)]
  framed := by
    rintro n ps ps' line ⟨hps, -⟩
    refine ⟨?_, fun h => nomatch h⟩
    have hbreak : (Piece.render [.lineBreak, .lineMarker 1]).length ≥ 1 := by
      simp [Piece.render, Piece.text]
    simp only [framed, hmarkers, hmarkers', if_true, Bool.false_eq_true, if_false,
      length_render_append]
    omega

/-- The unrolled text is what the pieces render. -/
theorem unroll_of_run {source : String} {path : Option String} {ps : List Piece} {w : Visit}
    (h : u.run source path = (.ok ps, w)) :
    u.unroll source path = .ok (String.ofList (Piece.render ps)) := by
  rw [unroll, h]
  rfl

/-- An unrolling that goes well with markers goes well without them, and the other way round; the
texts are the same exactly if no file was opened. -/
theorem Simulates.unroll_iff (h : Simulates Longer u u') (source : String) (path : Option String) :
    (u.run source path).2 = (u'.run source path).2 ∧
      ((∃ text text', u.unroll source path = .ok text ∧ u'.unroll source path = .ok text' ∧
          (text = text' ↔ (u.run source path).2.opened = [])) ∨
        ∃ e e', u.unroll source path = .error e ∧ u'.unroll source path = .error e') := by
  obtain ⟨w, ⟨ps, ps', hps, hps', hlonger, hsame⟩ | ⟨e, e', he, he'⟩⟩ := h.run source path
  · rw [hps, hps']
    refine ⟨rfl, .inl ⟨_, _, unroll_of_run hps, unroll_of_run hps', fun heq => ?_, fun hnil => ?_⟩⟩
    · have := congrArg List.length (String.ofList_injective heq)
      have hnone : w.opened.length = 0 := by omega
      exact List.length_eq_zero_iff.1 hnone
    · rw [hsame (List.length_eq_zero_iff.2 hnil)]
  · exact ⟨by rw [he, he'], .inr ⟨e, e', by rw [unroll, he]; rfl, by rw [unroll, he']; rfl⟩⟩

/-- What two unrollers on one store make of a source: they open the same files, both succeed or both
fail, and their texts are the same exactly if they agree on line markers or no file was opened. -/
theorem unroll_compare (u u' : Unroller) (hstore : u'.store = u.store) (source : String)
    (path : Option String) :
    (u.run source path).2 = (u'.run source path).2 ∧
      ((∃ text text', u.unroll source path = .ok text ∧ u'.unroll source path = .ok text' ∧
          (text = text' ↔ u.lineMarkers = u'.lineMarkers ∨ (u.run source path).2.opened = [])) ∨
        ∃ e e', u.unroll source path = .error e ∧ u'.unroll source path = .error e') := by
  cases hu : u.lineMarkers <;> cases hu' : u'.lineMarkers
  case true.false =>
    simpa using (simulates_longer hstore hu hu').unroll_iff source path
  case false.true =>
    obtain ⟨hvisit, ⟨text, text', htext, htext', hiff⟩ | ⟨e, e', he, he'⟩⟩ :=
      (simulates_longer hstore.symm hu' hu).unroll_iff source path
    · refine ⟨hvisit.symm, .inl ⟨text', text, htext', htext, ?_⟩⟩
      rw [eq_comm, hiff, hvisit]
      simp
    · exact ⟨hvisit.symm, .inr ⟨e', e, he', he⟩⟩
  all_goals
    obtain ⟨w, ⟨ps, ps', hps, hps', rfl⟩ | ⟨e, e', he, he'⟩⟩ :=
      (simulates_of_lineMarkers_eq hstore (hu'.trans hu.symm)).run source path
    · rw [hps, hps']
      exact ⟨rfl, .inl ⟨_, _, unroll_of_run hps, unroll_of_run hps', by simp⟩⟩
    · exact ⟨by rw [he, he'], .inr ⟨e, e', by rw [unroll, he]; rfl, by rw [unroll, he']; rfl⟩⟩

end Unroller

end ShaderBind.Source
