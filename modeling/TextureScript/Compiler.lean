import TextureScript.Assembly
import TextureScript.Plan.Resolver
import TextureScript.Script.Parser

/-!
# Compiling scripts

A script is lexed, parsed and resolved, and every problem of every stage is reported, whatever the
stages before found. Only a script without errors is assembled; warnings do not stand in its way.
-/

namespace TextureScript

/-- The name of a script that is not given one. -/
def defaultScriptName : String := "script.coo"

/-- What comes of compiling a script. -/
structure Compilation where
  /-- The compiled script, if there is one. -/
  compiled : Option CompiledModule
  /-- The problems found. -/
  report : Report
deriving Inhabited

/-- What is known of a script before it is assembled. -/
structure FrontEnd where
  /-- The plan, as far as it could be made. -/
  plan : Plan
  /-- The problems found. -/
  report : Report
deriving Inhabited

/-- Resolve a script against its inputs, and add what is found to a report. -/
def Script.resolveInto (script : Script) (inputs : List InputImage) (source : SourceText)
    (report : Report) : FrontEnd :=
  let resolution := script.resolve inputs
  ⟨resolution.plan, report.addFindings source resolution.findings⟩

/-- Lex, parse and resolve a script. -/
def SourceText.analyse (source : SourceText) (inputs : List InputImage) : FrontEnd :=
  let lexed := source.lex
  let parsed := Script.parse lexed.tokens.toList
  let report := Report.empty.addFindings source lexed.findings
  let report := report.addFindings source parsed.findings
  parsed.script.resolveInto inputs source report

/-- The first line of a text without its line end, which is a newline and a carriage return before
it. -/
def firstLine (content : List Char) : List Char :=
  let line := content.takeWhile (· != '\n')
  if line.length < content.length ∧ line.getLast? = some '\r' then line.dropLast else line

/-- The problem of a script that cannot be assembled. -/
def assemblyFinding (fault : AssemblyFault) : Finding where
  code := .limitExceeded
  message := s!"code generation failed: {fault.message}"
  span := .point 1 1

/-- Report every problem of a script. -/
def check (content name : String) (inputs : List InputImage) : Report :=
  ((SourceText.ofString name content).analyse inputs).report

/-- Compile a script. -/
def compile (content name : String) (inputs : List InputImage) : Compilation :=
  let front := (SourceText.ofString name content).analyse inputs
  if front.report.hasErrors then ⟨none, front.report⟩
  else
    match front.plan.assemble with
    | .ok compiled => ⟨some compiled, front.report⟩
    | .error fault =>
      let line := String.ofList (firstLine content.toList)
      ⟨none, front.report.pushError ((assemblyFinding fault).inFile name line)⟩

/-- Compile a script, and give its problems only if it cannot be compiled. -/
def compileModule (content name : String) (inputs : List InputImage) :
    Except Report CompiledModule :=
  let compilation := compile content name inputs
  match compilation.compiled with
  | some compiled => .ok compiled
  | none => .error compilation.report

/-- Compile a script that is not given a name. -/
def compileUnnamed (content : String) (inputs : List InputImage) : Except Report CompiledModule :=
  compileModule content defaultScriptName inputs

end TextureScript
