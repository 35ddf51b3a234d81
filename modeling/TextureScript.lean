import TextureScript.Assembly
import TextureScript.Compiled
import TextureScript.Compiler
import TextureScript.Diagnostic
import TextureScript.Diagnostic.Report
import TextureScript.Digest.Sha256
import TextureScript.Handle
import TextureScript.Image
import TextureScript.Json
import TextureScript.Json.Tooling
import TextureScript.Material
import TextureScript.Operation
import TextureScript.Plan
import TextureScript.Plan.Resolver
import TextureScript.Proofs.Assembly.Acceptance
import TextureScript.Proofs.Assembly.Bytes
import TextureScript.Proofs.Assembly.Correctness
import TextureScript.Proofs.Assembly.Determination
import TextureScript.Proofs.Assembly.Naming
import TextureScript.Proofs.Assembly.Rejection
import TextureScript.Proofs.Assembly.Simulation
import TextureScript.Proofs.Assembly.Validity
import TextureScript.Proofs.Compiler.Acceptance
import TextureScript.Proofs.Compiler.Anchoring
import TextureScript.Proofs.Compiler.Correctness
import TextureScript.Proofs.Compiler.InputMaps
import TextureScript.Proofs.Compiler.Interpreter
import TextureScript.Proofs.Compiler.Layout
import TextureScript.Proofs.Compiler.Outputs
import TextureScript.Proofs.Compiler.Renaming
import TextureScript.Proofs.Compiler.Repetition
import TextureScript.Proofs.Compiler.Simulation
import TextureScript.Proofs.Compiler.Success
import TextureScript.Proofs.Compiler.Unset
import TextureScript.Proofs.Compiler.Variation
import TextureScript.Proofs.Diagnostic.Log
import TextureScript.Proofs.Image.Colors
import TextureScript.Proofs.Image.Geometry
import TextureScript.Proofs.Image.Sampling
import TextureScript.Proofs.Image.Shades
import TextureScript.Proofs.Json.RoundTrip
import TextureScript.Proofs.Lists
import TextureScript.Proofs.Plan.Checking
import TextureScript.Proofs.Plan.Evaluation
import TextureScript.Proofs.Plan.Findings
import TextureScript.Proofs.Plan.Inputs
import TextureScript.Proofs.Plan.Problems
import TextureScript.Proofs.Plan.Resolution
import TextureScript.Proofs.Plan.Variation
import TextureScript.Proofs.Plan.WellFormed
import TextureScript.Proofs.Scope
import TextureScript.Proofs.Script.Extents
import TextureScript.Proofs.Script.Grammar
import TextureScript.Proofs.Script.Halting
import TextureScript.Proofs.Script.Literals
import TextureScript.Proofs.Script.Nesting
import TextureScript.Proofs.Script.Places
import TextureScript.Proofs.Script.Reading
import TextureScript.Proofs.Script.Recognition
import TextureScript.Proofs.Script.Recovery
import TextureScript.Proofs.Script.Rules
import TextureScript.Proofs.Script.Sites
import TextureScript.Proofs.Script.Spans
import TextureScript.Proofs.Script.Writing
import TextureScript.Proofs.Source.Lines
import TextureScript.Proofs.Source.Positions
import TextureScript.Proofs.Source.Slices
import TextureScript.Proofs.Store.Atomicity
import TextureScript.Proofs.Store.Drawing
import TextureScript.Proofs.Store.Export
import TextureScript.Proofs.Store.Geometry
import TextureScript.Proofs.Store.Handles
import TextureScript.Proofs.Store.History
import TextureScript.Proofs.Store.Invariant
import TextureScript.Proofs.Store.Outcomes
import TextureScript.Proofs.Store.Refusals
import TextureScript.Proofs.Store.Renaming
import TextureScript.Proofs.Store.Session
import TextureScript.Proofs.Store.Shades
import TextureScript.Proofs.Store.Shapes
import TextureScript.Proofs.Text.EditDistance
import TextureScript.Proofs.Text.NearName
import TextureScript.Proofs.Token.Budget
import TextureScript.Proofs.Token.Forms
import TextureScript.Proofs.Token.Layout
import TextureScript.Proofs.Token.Scanner
import TextureScript.Proofs.Token.Tiling
import TextureScript.Proofs.Wasm.Agreement
import TextureScript.Proofs.Wasm.Leb128
import TextureScript.Proofs.Wasm.Memory
import TextureScript.Proofs.Wasm.RoundTrip
import TextureScript.Reference
import TextureScript.Scope
import TextureScript.Script
import TextureScript.Script.Parser
import TextureScript.Source.Span
import TextureScript.Source.Text
import TextureScript.Store
import TextureScript.Store.Export
import TextureScript.Store.Operations
import TextureScript.Store.Run
import TextureScript.Text.EditDistance
import TextureScript.Token
import TextureScript.Token.Lexer
import TextureScript.Token.Piece
import TextureScript.Wasm.Constant
import TextureScript.Wasm.Decoding
import TextureScript.Wasm.Encoding
import TextureScript.Wasm.Frame
import TextureScript.Wasm.Leb128
import TextureScript.Wasm.Machine
import TextureScript.Wasm.Memory
import TextureScript.Wasm.Module
import TextureScript.Wasm.Validation
