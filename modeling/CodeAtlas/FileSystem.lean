import CodeAtlas.Language
import CodeAtlas.Tree.Basic

/-!
# File systems

What a scan takes from its surroundings: whether a path leads to a directory, what a walk of the
directory comes to, and the sizes and contents of the entries. Each of these can fail, and the walk is
left open. It is a function of the directory and of one switch only, so nothing else that a scan is
told can have a say in it.

Names on a disk are bytes. Most of them are text, and those that are not keep their bytes.
-/

namespace CodeAtlas

/-- A name on a disk. -/
inductive DiskName where
  | text (name : String)
  /-- Bytes that are no text. -/
  | raw (bytes : List UInt8) (notText : String.fromUTF8? ⟨bytes.toArray⟩ = none)
deriving DecidableEq

namespace DiskName

/-- The name as a text. -/
def text? : DiskName → Option String
  | text name => some name
  | raw _ _ => none

/-- The part of some bytes after the last dot, if there are bytes before that dot, too. -/
def behindLastDot? (bytes : List UInt8) : Option (List UInt8) :=
  let dot := '.'.toNat.toUInt8
  match bytes.reverse.dropWhile (· != dot) with
  | _ :: _ :: _ => some (bytes.reverse.takeWhile (· != dot)).reverse
  | _ => none

/-- The part of a name after its last dot, if that part is a text. -/
def extension? : DiskName → Option String
  | text name => (Path.splitExtension name).2
  | raw bytes _ =>
    (behindLastDot? bytes).bind fun extension => String.fromUTF8? ⟨extension.toArray⟩

/-- The language of the file to which names lead, by its extension. -/
def languageOf? (names : List DiskName) : Option Language :=
  (names.getLast?.bind extension?).bind Language.ofExtension?

/-- The path that names spell, if all of them are texts. -/
def path? (names : List DiskName) : Option Path :=
  (names.mapM text?).map fun texts => ⟨Text.joinWith "/" texts⟩

end DiskName

/-- What a walk comes to: the names that lead to it from the walked directory, and whether it is a
file. -/
structure WalkEntry where
  names : List DiskName
  isFile : Bool
deriving DecidableEq

/-- What a scan asks of its surroundings. -/
structure FileSystem where
  /-- Is there a directory at a path? -/
  isDirectory : Path → Bool
  /-- What a walk of a directory comes to, one after the other, with the ignore files of the version
  control or without. An entry that cannot be looked at has no names. -/
  walk : (root : Path) → (versionControl : Bool) → List (Option WalkEntry)
  /-- The size of an entry, if it can be told. -/
  size? : (root : Path) → List DiskName → Option Nat
  /-- The content of a file, or why it cannot be read. -/
  read : (root : Path) → List DiskName → Except String ByteArray
  /-- The finished syntax tree of a source. -/
  tree : (root : Path) → List DiskName → Tree

namespace FileSystem

/-- The size that counts for an entry; it is nothing if it cannot be told. -/
def sizeOf (fs : FileSystem) (root : Path) (names : List DiskName) : Nat :=
  (fs.size? root names).getD 0

/-- Why a file that is no text cannot be read. -/
def notTextReason : String := "stream did not contain valid UTF-8"

/-- The text of a file, or why it cannot be read. -/
def readText (fs : FileSystem) (root : Path) (names : List DiskName) : Except String String := do
  let content ← fs.read root names
  match String.fromUTF8? content with
  | some text => .ok text
  | none => .error notTextReason

end FileSystem

end CodeAtlas
