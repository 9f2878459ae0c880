import CodeAtlas.Error
import CodeAtlas.Facts.Calls
import CodeAtlas.Facts.Folding
import CodeAtlas.Facts.Imports

/-!
# Reading the facts of a file

A file with a syntax error yields no facts, only the place of its first error. Otherwise the
outline, the imports and the calls are read off the tree independently and put together: every call
is given to the innermost declaration around it, and the calls of decorators come last.
-/

namespace CodeAtlas

namespace Document

/-- The facts of a document without syntax errors. -/
def facts (doc : Document) (path : Path) : FileFacts :=
  let (declarations, scopes, decoratorCalls) := doc.outline.finish doc.language
  { path := path
    language := doc.language
    contentHash := contentHash doc.text
    declarations := withStableIds path declarations
    imports := doc.imports
    calls := (doc.callSites [] doc.tree).map (·.attributed scopes) ++ decoratorCalls }

end Document

/-- The facts of a source in a given language. -/
def extractSource (path : Path) (language : Language) (text : String) (tree : Tree) :
    Except Error FileFacts :=
  match tree.errorOffset? with
  | some offset => .error (.parse path offset)
  | none => .ok ({ language := language, text := text, tree := tree : Document }.facts path)

/-- The facts of a source whose language is that of its file extension. -/
def extractFile (path : Path) (text : String) (tree : Tree) : Except Error FileFacts :=
  match Language.ofPath? path with
  | none => .error (.unsupportedLanguage path)
  | some language => extractSource path language text tree

end CodeAtlas
