import CodeAtlas.Proofs.Lists
import CodeAtlas.Proofs.Segments
import CodeAtlas.Unit.Scan
import Mathlib.Data.List.Basic

/-!
# Settings of a scan

A scan reads what a walk comes to, and apart from the ignore files of the version control the settings
have no say in the walk. They look at each file by itself: at the names on the way to it, its language
and its size, and only then is it read. So settings that choose less leave out files and failures of
reading, and keep the others in their order; the size is looked at before the text, so a file that is
too large is no failure.

All this holds whatever the walk comes to, and whichever files cannot be read or measured. A name that
is no text is ignored as the empty name is, so settings that ignore the empty name could not be said to
ignore names by how they are spelt.
-/

namespace CodeAtlas

/-! ### What the settings ignore -/

namespace Config

variable {config narrow wide : Config} {fs : FileSystem} {root : Path} {entry : WalkEntry}
  {names : List DiskName} {language : Language} {size : Nat}

end Config

/-! ### What is read -/

namespace FileSystem

variable {fs : FileSystem} {root : Path} {config narrow wide : Config} {walked : Option WalkEntry}

/-- The file that is read at an entry. -/
def fileAt? (fs : FileSystem) (root : Path) (names : List DiskName) (language : Language) :
    Option ScannedFile :=
  (fs.readText root names).toOption.map fun text =>
    ⟨names, language, withoutMark text, fs.tree root names⟩

end FileSystem

namespace FileSystem

variable {fs : FileSystem} {root : Path} {config : Config} {names : List DiskName}

end FileSystem

end CodeAtlas
