import CodeAtlas.Command.Arguments
import CodeAtlas.Command.Report
import CodeAtlas.Config.Read
import CodeAtlas.Unit.Scan

/-!
# Running a command

A command loads its configuration, scans a directory, analyzes what it finds and reports on the
graph. A configuration that is missing or invalid stands for the defaults.
-/

namespace CodeAtlas.Command

/-- Why a command fails. -/
inductive Failure where
  | scan (root : Path) (cause : Error)
  | analyze (root : Path) (cause : Error)
  /-- No analyzed file has the path. -/
  | noModule (file : Path)
deriving DecidableEq

/-- An error and what is behind it: the reason why something cannot be read is said once more on its
own. -/
def causes (e : Error) : String :=
  match e with
  | .io reason => e.message ++ ": " ++ reason
  | _ => e.message

/-- The message for a failure. -/
def Failure.message : Failure → String
  | scan root cause => "failed to scan " ++ root.text ++ ": " ++ causes cause
  | analyze root cause => "failed to analyze " ++ root.text ++ ": " ++ causes cause
  | noModule file => "no analyzed module at " ++ file.text

/-- The file with the configuration of a directory. -/
def configFileName : Path := ⟨".factgraph.toml"⟩

/-- The configuration in a file, with defaults if there is none or it cannot be read. -/
def loadConfig (working : Directory) (file : Path) : Config :=
  let text := (working.fileAt? file).bind fun stored => String.fromUTF8? stored.content
  ((text.map Config.parse).bind Except.toOption).getD {}

namespace Invocation

/-- Where the configuration is looked for. -/
def configFile (inv : Invocation) : Path :=
  inv.config.getD ((inv.root.getD ⟨"."⟩).join configFileName)

/-- The configuration in force. -/
def effectiveConfig (inv : Invocation) (working : Directory) : Config :=
  let config := loadConfig working inv.configFile
  match inv.threads with
  | some n => { config with analysis := { config.analysis with threads := n } }
  | none => config

/-- Scan and analyze the directory that the command line and the configuration name. -/
def analysis (inv : Invocation) (working : Directory) (machine : Machine) :
    Except Failure Analysis := do
  let config := inv.effectiveConfig working
  let root := inv.root.getD (config.rootFor inv.configFile)
  let unit ← (SourceUnit.scan working root config).mapError (.scan root)
  match ← (unit.run config machine (.constantly false)).mapError (.analyze root) with
  | .complete analysis => .ok analysis
  | .cancelled run => (run.resolve config.resolution).mapError (.analyze root)

/-- The lines of the report that an action asks for. -/
def report (action : Action) (analysis : Analysis) : Except Failure (List String) :=
  let g := analysis.graph
  match action with
  | .analyze .json => .ok [g.toJsonText]
  | .analyze .yaml => .ok [g.toYamlText]
  | .stats => .ok (Report.stats analysis)
  | .symbols file =>
    match g.moduleByPath? file with
    | some m => .ok (Report.symbols g m)
    | none => .error (.noModule file)
  | .unresolved limit => .ok (Report.unresolved g limit)
  | .externals => .ok (Report.externals g)
  | .callers name => .ok (Report.callers g name)
  | .cycles => .ok (Report.cycles g)

/-- Run a command in a directory: the text it prints, or why it fails. -/
def run (inv : Invocation) (working : Directory) (machine : Machine) : Except Failure String := do
  let lines ← report inv.action (← inv.analysis working machine)
  .ok (String.join (lines.map (· ++ "\n")))

end Invocation

end CodeAtlas.Command
