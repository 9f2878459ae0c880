import CodeAtlas.Command.Run
import CodeAtlas.Tree.Listing

/-!
# The command line program

Reads the working directory, runs the command and prints its report. The syntax tree of a source is
taken from the listing beside it, in a file of the same name with `.tree` at its end.
-/

namespace CodeAtlas

/-- A stored file with the tree of its listing, if there is one. -/
def loadFile (entry : IO.FS.DirEntry) : IO StoredFile := do
  let content ← IO.FS.readBinFile entry.path
  let listing ← try some <$> IO.FS.readFile (entry.path.toString ++ ".tree") catch _ => pure none
  return ⟨content, (listing.bind Tree.ofListing?).getD Tree.unparsed⟩

/-- A directory with everything below it. -/
partial def loadDirectory (entries : Array IO.FS.DirEntry) : IO Directory := do
  let mut dir : Directory := []
  for entry in entries do
    if ← entry.path.isDir then
      dir := dir.put entry.fileName (.directory (← loadDirectory (← entry.path.readDir)))
    else
      dir := dir.put entry.fileName (.file (← loadFile entry))
  return dir

/-- How the program is used. -/
def usage : String :=
  Text.joinWith "\n"
    ["Usage: factgraph [OPTIONS] <COMMAND>", "", "Commands:",
      "  analyze     Print the full graph snapshot",
      "  stats       Show resolution statistics and per-file errors",
      "  symbols     Show the symbol tree of one file",
      "  unresolved  List calls that could not be resolved",
      "  externals   List external and unexpandable imports",
      "  callers     Show every resolved call into symbols with this name",
      "  cycles      List import cycles", "", "Options:",
      "  -r, --root <ROOT>        Directory to analyze",
      "  -c, --config <CONFIG>    Config file",
      "  -t, --threads <THREADS>  Worker threads for extraction",
      "  -v, --verbose            Log more",
      "  -h, --help               Print help"]

end CodeAtlas

/-- Run one command. -/
def main (args : List String) : IO UInt32 := do
  match CodeAtlas.Command.parse args with
  | .error .help =>
    IO.println CodeAtlas.usage
    return 0
  | .error _ =>
    IO.eprintln CodeAtlas.usage
    return 2
  | .ok invocation =>
    let working ← CodeAtlas.loadDirectory (← (← IO.currentDir).readDir)
    match invocation.run working {} with
    | .ok text =>
      IO.print text
      return 0
    | .error failure =>
      IO.eprintln ("error: " ++ failure.message)
      return 1
