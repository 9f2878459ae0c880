import CodeAtlas.Facts.Doc
import CodeAtlas.Facts.Fingerprint
import CodeAtlas.Facts.Heuristics
import CodeAtlas.Facts.Summary

/-!
# Profiles

What the text of a declaration tells about it, apart from the stable identity, which needs the
finished scopes of the whole file.
-/

namespace CodeAtlas

/-- Do the statements around a script declaration export it? -/
def exportedByStatement : Tree.Spine → Bool
  | [] => false
  | frame :: above =>
    match frame.parent.kind with
    | "export_statement" => true
    | "lexical_declaration" | "variable_declaration" => exportedByStatement above
    | _ => false

namespace Document

/-- Can other files see the declaration? -/
def isExported (doc : Document) (t : Tree) (spine : Tree.Spine) (d : Declaration) : Bool :=
  match doc.language with
  | .python => d.parent.isNone && d.visibility.isExposed
  | .go => d.name.toList.head?.any Text.isUpper
  | .rust =>
    t.children.any fun child =>
      child.kind == "visibility_modifier" && Text.startsWith "pub" (doc.textOf child)
  | .java =>
    t.children.any fun child =>
      child.kind == "modifiers" && (Text.words (doc.textOf child)).contains "public"
  | .javaScript | .typeScript | .tsx => exportedByStatement spine
  | .c | .cpp =>
    d.parent.isNone && !t.children.any fun child =>
      child.kind == "storage_class_specifier" && doc.textOf child == "static"

/-- The profile of a declaration at a node, without its stable identity. -/
def profileOf (doc : Document) (t : Tree) (spine : Tree.Spine) (d : Declaration) : Profile :=
  let description := doc.docOf t spine
  let text := doc.textOf t
  { fingerprint := t.fingerprint d.name d.parameters.length d.returnType.isSome
    exported := doc.isExported t spine d
    doc := description
    summary := summaryOf d description
    invariants := conditionsOf description text
    sideEffects := effectsOf text }

end Document

end CodeAtlas
