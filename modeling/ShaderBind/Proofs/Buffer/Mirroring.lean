import ShaderBind.Buffer.Load
import Mathlib.Data.List.Forall2

/-!
# Buffer layouts and types

The layout of a buffer is a picture of its type: a struct has one variable for each of its members,
with the name and the offset that the member has, and so on below (`Mirrors`). The class of a
variable and its rows and columns are those of the member's type (`ShaderType.extent`). An array is
shown as its elements are, so the members of its elements are found directly below it, however many
arrays stand between.

In HLSL the picture is the same but for one thing: rows and columns are counted the other way round
(`Exchanged`). They are exchanged where a type without parts is described, which for arrays in
arrays happens once, at the innermost. The one exception are structs named as the rows of a matrix
with a stride of its own, which HLSL shows as a matrix. Both facts are shown by recursion on the
type, along with its description (`load_mirrors`, `load_exchanged`), and put together in
`ofType_mirrors`.
-/

namespace ShaderBind

/-- The class of a variable, the type of its components, and its rows and columns. -/
structure Buffer.Extent where
  variableClass : VariableClass := .unknown
  basicType : BasicType := .unknown
  rows : Nat := 0
  columns : Nat := 0
  deriving DecidableEq

/-- HLSL has rows and columns the other way round. -/
def Buffer.Extent.inTermsOf (language : Language) (e : Extent) : Extent :=
  if language = .hlsl then { e with rows := e.columns, columns := e.rows } else e

/-- What a variable says of its extent. -/
def Buffer.Variable.extent (v : Variable) : Extent :=
  ⟨v.variableClass, v.basicType, v.rows, v.columns⟩

namespace ShaderType

/-- The extent of a type; an array has that of its elements. -/
def extent : ShaderType → Buffer.Extent
  | basic _ (.scalar s) => ⟨.scalar, s.basicType, 1, 1⟩
  | basic _ (.atomic s) => ⟨.scalar, s.basicType, 1, 1⟩
  | basic _ (.vector n s) => ⟨.vector, s.basicType, n, 1⟩
  | basic _ (.matrix columns rows s) => ⟨.matrixRows, s.basicType, rows, columns⟩
  | array _ base _ _ => extent base
  | struct .. => { variableClass := .struct }
  | _ => {}

/-- The members of the struct that a type is, or that its elements are. -/
def members : ShaderType → List (Member ShaderType)
  | basic .. => []
  | array _ base _ _ => members base
  | bindingArray .. => []
  | struct _ members _ => members

/-- The length of an array as far as it is known; zero for every other type. -/
def length : ShaderType → Nat
  | array _ _ _ size => size.known
  | _ => 0

/-- What a buffer of the type is made of: the members of a struct, or else the type itself, without
a name. -/
def bufferMembers : ShaderType → List (Member ShaderType)
  | struct _ members _ => members
  | type => [⟨none, 0, type⟩]

mutual

/-- Whether some struct in the type has the given name. -/
def hasStruct (name : String) : ShaderType → Bool
  | basic .. => false
  | array _ base _ _ => hasStruct name base
  | bindingArray _ base _ => hasStruct name base
  | struct own members _ => own == some name || membersHaveStruct name members

/-- Whether some struct in the types of the members has the given name. -/
def membersHaveStruct (name : String) : List (Member ShaderType) → Bool
  | [] => false
  | ⟨_, _, type⟩ :: members => hasStruct name type || membersHaveStruct name members

end

end ShaderType

namespace Buffer

/-- The variable shows the member: it has the name and the offset, the length and the extent of the
member's type in terms of the language, and below it the members of that type, one by one. -/
inductive Mirrors (language : Language) : Variable → Member ShaderType → Prop
  | node {v : Variable} {m : Member ShaderType} (name : v.name = m.name.getD "")
      (offset : v.offset = m.offset) (arraySize : v.arraySize = m.type.length)
      (extent : v.extent = m.type.extent.inTermsOf language)
      (members : List.Forall₂ (Mirrors language) v.members m.type.members) : Mirrors language v m

/-- Whether a variable of the class has rows and columns. -/
def VariableClass.hasRows : VariableClass → Bool
  | unknown => false
  | scalar => true
  | vector => true
  | matrixRows => true
  | matrixColumns => true
  | struct => false

/-- The rows and columns of one variable are those of the other, exchanged if it has any. -/
def ExchangedRows (v w : Variable) : Prop :=
  if v.variableClass.hasRows then w.rows = v.columns ∧ w.columns = v.rows
  else w.rows = v.rows ∧ w.columns = v.columns

/-- The variables are the same, but for the names of types, and with rows and columns exchanged in
them and in everything below. -/
inductive Exchanged : Variable → Variable → Prop
  | node {v w : Variable} (name : w.name = v.name) (offset : w.offset = v.offset)
      (variableClass : w.variableClass = v.variableClass) (basicType : w.basicType = v.basicType)
      (arraySize : w.arraySize = v.arraySize) (rows : ExchangedRows v w)
      (members : List.Forall₂ Exchanged v.members w.members) : Exchanged v w

/-! ## Steps of a description -/

/-- Naming the type of a variable changes nothing else. -/
theorem withTypeName_eq (language : Language) (type : ShaderType) (v : Variable) :
    ∃ typeName, v.withTypeName language type = { v with typeName } := by
  unfold Variable.withTypeName
  split
  · exact ⟨_, rfl⟩
  · cases v
    exact ⟨_, rfl⟩

theorem Mirrors.withTypeName {language : Language} {type : ShaderType} {v : Variable}
    {m : Member ShaderType} (h : Mirrors language v m) :
    Mirrors language (v.withTypeName language type) m := by
  obtain ⟨_, hv⟩ := withTypeName_eq language type v
  rw [hv]
  cases h with
  | node name offset arraySize extent members =>
    exact .node name offset arraySize extent members

/-- A variable with nothing below it shows a member of the extent that it has. -/
theorem mirrors_inTermsOf (language : Language) {v : Variable} {m : Member ShaderType}
    (hname : v.name = m.name.getD "") (hoffset : v.offset = m.offset)
    (hlength : v.arraySize = m.type.length) (hextent : v.extent = m.type.extent)
    (hmembers : v.members = [] ∧ m.type.members = []) :
    Mirrors language (v.inTermsOf language) m := by
  have hnil : List.Forall₂ (Mirrors language) v.members m.type.members := by
    rw [hmembers.1, hmembers.2]
    exact .nil
  unfold Variable.inTermsOf
  split
  next h =>
    refine .node hname hoffset hlength ?_ hnil
    rw [← hextent, Extent.inTermsOf, if_pos h]
    rfl
  next h =>
    refine .node hname hoffset hlength ?_ hnil
    rw [← hextent, Extent.inTermsOf, if_neg h]

theorem mirrors_ofShape (language : Language) (name own : Option String) (offset : Nat)
    (shape : BasicShape) :
    Mirrors language ((ofShape { name := name.getD "", offset } shape).inTermsOf language)
      ⟨name, offset, .basic own shape⟩ := by
  cases shape <;> exact mirrors_inTermsOf language rfl rfl rfl rfl ⟨rfl, rfl⟩

section

variable {language : Language} {v w : Variable}

theorem Exchanged.withTypeName {language' : Language} {type type' : ShaderType}
    (h : Exchanged v w) :
    Exchanged (v.withTypeName language type) (w.withTypeName language' type') := by
  obtain ⟨_, hv⟩ := withTypeName_eq language type v
  obtain ⟨_, hw⟩ := withTypeName_eq language' type' w
  rw [hv, hw]
  cases h with
  | node name offset variableClass basicType arraySize rows members =>
    exact .node name offset variableClass basicType arraySize rows members

/-- A variable with nothing below it and HLSL's reading of it. Where it has no rows, it does not
matter that they are exchanged. -/
theorem exchanged_inTermsOf (hlanguage : language ≠ .hlsl) (hmembers : v.members = [])
    (hrows : v.variableClass.hasRows = false → v.rows = v.columns) :
    Exchanged (v.inTermsOf language) (v.inTermsOf .hlsl) := by
  rw [Variable.inTermsOf, if_neg hlanguage, Variable.inTermsOf, if_pos rfl]
  refine .node rfl rfl rfl rfl rfl ?_ (by rw [hmembers]; exact .nil)
  unfold ExchangedRows
  split
  · exact ⟨rfl, rfl⟩
  next h =>
    have hsame := hrows (by simpa using h)
    exact ⟨hsame.symm, hsame⟩

theorem members_ofShape (v : Variable) (shape : BasicShape) :
    (ofShape v shape).members = v.members := by
  cases shape <;> rfl

/-- A type that gives a variable no class leaves its rows alone. -/
theorem rows_ofShape (hv : v.rows = v.columns) {shape : BasicShape}
    (h : (ofShape v shape).variableClass.hasRows = false) :
    (ofShape v shape).rows = (ofShape v shape).columns := by
  cases shape <;> first | exact hv | cases h

/-- A type without a struct of that name is no row of a matrix with a stride of its own. -/
theorem stridedRow?_eq_none {type : ShaderType} (h : type.hasStruct "strided_arr" = false) :
    stridedRow? language type = none := by
  unfold stridedRow?
  split
  · simp [ShaderType.hasStruct] at h
  · rfl

/-- An array is described as its elements are, with its length. -/
theorem load_array {name : Option String} {base : ShaderType} {stride : Nat} {size : ArraySize}
    (h : base.hasStruct "strided_arr" = false) :
    Variable.load language v (.array name base stride size) =
      { Variable.load language v base with arraySize := size.known }.withTypeName language
        (.array name base stride size) := by
  simp only [Variable.load, stridedRow?_eq_none h]

end

/-! ## Whole types -/

mutual

/-- A variable shows the member that it is loaded for. -/
theorem load_mirrors (language : Language) (name : Option String) (offset : Nat) :
    ∀ type : ShaderType, type.hasStruct "strided_arr" = false →
      Mirrors language (Variable.load language { name := name.getD "", offset } type)
        ⟨name, offset, type⟩
  | .basic own shape, _ => (mirrors_ofShape language name own offset shape).withTypeName
  | .array own base stride size, h => by
    rw [ShaderType.hasStruct] at h
    rw [load_array h]
    cases load_mirrors language name offset base h with
    | node hname hoffset _ hextent hmembers =>
      exact Mirrors.withTypeName (.node hname hoffset rfl hextent hmembers)
  | .bindingArray own base size, _ =>
    (mirrors_inTermsOf language rfl rfl rfl rfl ⟨rfl, rfl⟩).withTypeName
  | .struct own members span, h => by
    rw [ShaderType.hasStruct, Bool.or_eq_false_iff] at h
    have hextent : ({ variableClass := .struct } : Extent).inTermsOf language =
        { variableClass := .struct } := ite_self _
    exact Mirrors.withTypeName
      (.node rfl rfl rfl hextent.symm (loadAll_mirrors language members h.2))

/-- The members of a struct are shown one by one. -/
theorem loadAll_mirrors (language : Language) :
    ∀ members : List (Member ShaderType),
      ShaderType.membersHaveStruct "strided_arr" members = false →
      List.Forall₂ (Mirrors language) (Variable.loadAll language members) members
  | [], _ => .nil
  | ⟨name, offset, type⟩ :: members, h => by
    rw [ShaderType.membersHaveStruct, Bool.or_eq_false_iff] at h
    exact .cons (load_mirrors language name offset type h.1) (loadAll_mirrors language members h.2)

end

mutual

/-- HLSL describes a variable with rows and columns exchanged. -/
theorem load_exchanged {language : Language} (hlanguage : language ≠ .hlsl) (name : String)
    (offset : Nat) :
    ∀ type : ShaderType, type.hasStruct "strided_arr" = false →
      Exchanged (Variable.load language { name, offset } type)
        (Variable.load .hlsl { name, offset } type)
  | .basic own shape, _ =>
    (exchanged_inTermsOf hlanguage (members_ofShape _ shape) (rows_ofShape rfl)).withTypeName
  | .array own base stride size, h => by
    rw [ShaderType.hasStruct] at h
    rw [load_array h, load_array h]
    -- the length is put beside what the elements are described as in either language
    cases load_exchanged hlanguage name offset base h with
    | node hname hoffset hclass hbasic _ hrows hmembers =>
      exact Exchanged.withTypeName (.node hname hoffset hclass hbasic rfl hrows hmembers)
  | .bindingArray own base size, _ =>
    (exchanged_inTermsOf hlanguage rfl fun _ => rfl).withTypeName
  | .struct own members span, h => by
    rw [ShaderType.hasStruct, Bool.or_eq_false_iff] at h
    exact Exchanged.withTypeName
      (.node rfl rfl rfl rfl rfl ⟨rfl, rfl⟩ (loadAll_exchanged hlanguage members h.2))

/-- HLSL describes the members of a struct one by one. -/
theorem loadAll_exchanged {language : Language} (hlanguage : language ≠ .hlsl) :
    ∀ members : List (Member ShaderType),
      ShaderType.membersHaveStruct "strided_arr" members = false →
      List.Forall₂ Exchanged (Variable.loadAll language members) (Variable.loadAll .hlsl members)
  | [], _ => .nil
  | ⟨name, offset, type⟩ :: members, h => by
    rw [ShaderType.membersHaveStruct, Bool.or_eq_false_iff] at h
    exact .cons (load_exchanged hlanguage (name.getD "") offset type h.1)
      (loadAll_exchanged hlanguage members h.2)

end

/-! ## Layouts -/

/-- A buffer of a type is laid out as the members that it is made of. -/
theorem topLevel_ofType (language : Language) (type : ShaderType) :
    (Layout.ofType language type).topLevel = Variable.loadAll language type.bufferMembers := by
  cases type <;> rfl

theorem membersHaveStruct_bufferMembers {type : ShaderType} {name : String}
    (h : type.hasStruct name = false) :
    ShaderType.membersHaveStruct name type.bufferMembers = false := by
  cases type with
  | struct own members span =>
    rw [ShaderType.hasStruct, Bool.or_eq_false_iff] at h
    exact h.2
  | basic own shape => rfl
  | array own base stride size =>
    simpa [ShaderType.bufferMembers, ShaderType.membersHaveStruct] using h
  | bindingArray own base size =>
    simpa [ShaderType.bufferMembers, ShaderType.membersHaveStruct] using h

/-- The layout of a buffer shows what the buffer is made of, at every level and through arrays: the
names and offsets of the members, and the class, the rows and the columns of their types. HLSL shows
the same as every other language, with rows and columns exchanged. -/
theorem ofType_mirrors {type : ShaderType} (h : type.hasStruct "strided_arr" = false) :
    (∀ language, List.Forall₂ (Mirrors language) (Layout.ofType language type).topLevel
      type.bufferMembers) ∧
      ∀ language, language ≠ .hlsl →
        (Layout.ofType .hlsl type).size = (Layout.ofType language type).size ∧
        List.Forall₂ Exchanged (Layout.ofType language type).topLevel
          (Layout.ofType .hlsl type).topLevel := by
  have hmembers := membersHaveStruct_bufferMembers h
  refine ⟨fun language => ?_, fun language hlanguage => ⟨rfl, ?_⟩⟩
  · rw [topLevel_ofType]
    exact loadAll_mirrors language _ hmembers
  · rw [topLevel_ofType, topLevel_ofType]
    exact loadAll_exchanged hlanguage _ hmembers

/-- A struct with a matrix and an array of arrays of structs. -/
def frame : ShaderType :=
  let light : ShaderType := .struct (some "Light")
    [⟨some "direction", 0, .basic none (.vector 3 ⟨.float, 4⟩)⟩,
     ⟨none, 12, .basic none (.scalar ⟨.float, 4⟩)⟩] 16
  .struct (some "Frame")
    [⟨some "tangents", 0, .basic none (.matrix 4 3 ⟨.float, 4⟩)⟩,
     ⟨some "lights", 64, .array none (.array none light 16 (.constant 2 (by decide))) 32
       (.constant 3 (by decide))⟩] 160

/-- The offset, the length of the array and the extent of the variable at a path. -/
def Layout.measure? (l : Layout) (path : List String) : Option (Nat × Nat × Extent) :=
  (l.find? path).map fun v => (v.offset, v.arraySize, v.extent)

/-- A matrix and the vectors of structs in two arrays, in either language. -/
theorem ofType_mirrors_frame :
    frame.hasStruct "strided_arr" = false ∧ Language.glsl ≠ .hlsl ∧
      List.Forall₂ (Mirrors .hlsl) (Layout.ofType .hlsl frame).topLevel frame.bufferMembers ∧
      List.Forall₂ Exchanged (Layout.ofType .glsl frame).topLevel
        (Layout.ofType .hlsl frame).topLevel ∧
      (Layout.ofType .glsl frame).measure? ["tangents"] =
        some (0, 0, ⟨.matrixRows, .float, 3, 4⟩) ∧
      (Layout.ofType .hlsl frame).measure? ["tangents"] =
        some (0, 0, ⟨.matrixRows, .float, 4, 3⟩) ∧
      (Layout.ofType .hlsl frame).measure? ["lights"] =
        some (64, 3, { variableClass := .struct }) ∧
      (Layout.ofType .glsl frame).measure? ["lights", "direction"] =
        some (0, 0, ⟨.vector, .float, 3, 1⟩) ∧
      (Layout.ofType .hlsl frame).measure? ["lights", "direction"] =
        some (0, 0, ⟨.vector, .float, 1, 3⟩) := by
  have hframe : frame.hasStruct "strided_arr" = false := by decide
  have hlanguage : Language.glsl ≠ .hlsl := by decide
  exact ⟨hframe, hlanguage, (ofType_mirrors hframe).1 .hlsl,
    ((ofType_mirrors hframe).2 .glsl hlanguage).2, by decide, by decide, by decide, by decide,
    by decide⟩

end Buffer

end ShaderBind
