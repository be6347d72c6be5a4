import ShaderBind.Artifact
import ShaderBind.Buffer.Layout
import ShaderBind.Buffer.Load
import ShaderBind.Cli.Arguments
import ShaderBind.Cli.Command
import ShaderBind.Cli.Run
import ShaderBind.Compile.Assembly
import ShaderBind.Compile.BuiltIn
import ShaderBind.Compile.Context
import ShaderBind.Compile.Run
import ShaderBind.Compile.Session
import ShaderBind.Compile.Shader
import ShaderBind.Compile.Tool
import ShaderBind.Compile.Trace
import ShaderBind.Coord
import ShaderBind.Device
import ShaderBind.Error
import ShaderBind.Glsl.Build
import ShaderBind.Glsl.Directive
import ShaderBind.Glsl.Expand
import ShaderBind.Glsl.Extension
import ShaderBind.Glsl.FrontEnd
import ShaderBind.Glsl.Header
import ShaderBind.Glsl.Token
import ShaderBind.Glsl.Version
import ShaderBind.Json.Basic
import ShaderBind.Json.Call
import ShaderBind.Json.Pipeline
import ShaderBind.Json.Resource
import ShaderBind.Json.Table
import ShaderBind.Language
import ShaderBind.Layout.File
import ShaderBind.Layout.Mapping
import ShaderBind.Main
import ShaderBind.Module.Assign
import ShaderBind.Module.Basic
import ShaderBind.Module.Format
import ShaderBind.Module.Layout
import ShaderBind.Module.Reflect
import ShaderBind.Module.Type
import ShaderBind.Module.Validity
import ShaderBind.Noted
import ShaderBind.Proofs.Buffer.Mirroring
import ShaderBind.Proofs.Compile.Assembling
import ShaderBind.Proofs.Compile.Caching
import ShaderBind.Proofs.Compile.Interleaving
import ShaderBind.Proofs.Compile.Lifecycle
import ShaderBind.Proofs.Compile.Progress
import ShaderBind.Proofs.Compile.RoundTrip
import ShaderBind.Proofs.Compile.Steps
import ShaderBind.Proofs.Compile.Submission
import ShaderBind.Proofs.Compile.Watching
import ShaderBind.Proofs.Glsl.Expansion
import ShaderBind.Proofs.Glsl.Sections
import ShaderBind.Proofs.Layout.Attempts
import ShaderBind.Proofs.Layout.Lookup
import ShaderBind.Proofs.Layout.Representation
import ShaderBind.Proofs.Module.Assignment
import ShaderBind.Proofs.Module.Placement
import ShaderBind.Proofs.Module.Reflection
import ShaderBind.Proofs.Outcome
import ShaderBind.Proofs.Remap.Completeness
import ShaderBind.Proofs.Remap.CrossStage
import ShaderBind.Proofs.Remap.Elementwise
import ShaderBind.Proofs.Remap.Fixpoint
import ShaderBind.Proofs.Remap.Plan
import ShaderBind.Proofs.Remap.Range
import ShaderBind.Proofs.Remap.Reported
import ShaderBind.Proofs.Remap.Stage
import ShaderBind.Proofs.Remap.Truthful
import ShaderBind.Proofs.Resource.ElementName
import ShaderBind.Proofs.Resource.Remerging
import ShaderBind.Proofs.Resource.Runs
import ShaderBind.Proofs.Resource.Wellformed
import ShaderBind.Proofs.Source.Cache
import ShaderBind.Proofs.Source.Concatenation
import ShaderBind.Proofs.Source.Directives
import ShaderBind.Proofs.Source.Faults
import ShaderBind.Proofs.Source.LineNumbers
import ShaderBind.Proofs.Source.Macros
import ShaderBind.Proofs.Source.Marker
import ShaderBind.Proofs.Source.Opening
import ShaderBind.Proofs.Source.Paths
import ShaderBind.Proofs.Source.Scanning
import ShaderBind.Proofs.Source.Splicing
import ShaderBind.Proofs.Source.Unrolling
import ShaderBind.Proofs.Spirv.Exactness
import ShaderBind.Proofs.Spirv.Interruption
import ShaderBind.Proofs.Spirv.Patching
import ShaderBind.Proofs.Spirv.Preamble
import ShaderBind.Proofs.Table.Binding
import ShaderBind.Proofs.Table.Compatibility
import ShaderBind.Proofs.Table.Contents
import ShaderBind.Proofs.Table.Coverage
import ShaderBind.Proofs.Table.Pipeline
import ShaderBind.Proofs.Table.Resolution
import ShaderBind.Proofs.Text.Decimal
import ShaderBind.Proofs.Wgsl.Attribute
import ShaderBind.Proofs.Wgsl.Comments
import ShaderBind.Proofs.Wgsl.MoveBindings
import ShaderBind.Proofs.Wgsl.Renumbering
import ShaderBind.Remap.CrossStage
import ShaderBind.Remap.Plan
import ShaderBind.Remap.Reported
import ShaderBind.Remap.Stage
import ShaderBind.Resource.Basic
import ShaderBind.Resource.Category
import ShaderBind.Resource.ElementName
import ShaderBind.Resource.List
import ShaderBind.Resource.Merge
import ShaderBind.Source.Cache
import ShaderBind.Source.Include
import ShaderBind.Source.Macro
import ShaderBind.Source.Marker
import ShaderBind.Source.Path
import ShaderBind.Source.Search
import ShaderBind.Source.Store
import ShaderBind.Source.Tree
import ShaderBind.Source.Unroll
import ShaderBind.Spirv.Assemble
import ShaderBind.Spirv.Decoration
import ShaderBind.Spirv.Disassemble
import ShaderBind.Spirv.Instruction
import ShaderBind.Spirv.Opcode
import ShaderBind.Stage
import ShaderBind.Table.BindGroup
import ShaderBind.Table.Binding
import ShaderBind.Table.Pipeline
import ShaderBind.Text.Class
import ShaderBind.Text.Cut
import ShaderBind.Text.Identifier
import ShaderBind.Text.Number
import ShaderBind.Wgsl.Attribute
import ShaderBind.Wgsl.Body
import ShaderBind.Wgsl.Declaration
import ShaderBind.Wgsl.Interface
import ShaderBind.Wgsl.Lower
import ShaderBind.Wgsl.Name
import ShaderBind.Wgsl.Print
import ShaderBind.Wgsl.Scope
import ShaderBind.Wgsl.Syntax
import ShaderBind.Wgsl.Token
import ShaderBind.Wgsl.Typing
import ShaderBind.Yaml.Block
import ShaderBind.Yaml.Cursor
import ShaderBind.Yaml.Node
import ShaderBind.Yaml.Scalar
import ShaderBind.Yaml.Tag
import ShaderBind.Yaml.Token
