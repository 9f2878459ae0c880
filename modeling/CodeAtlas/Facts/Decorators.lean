import CodeAtlas.Facts.Callee

/-!
# Decorators and annotations

What is written as `@name` or `@name(..)` at a declaration. With call syntax it is also a call,
made by the scope around the declaration.
-/

namespace CodeAtlas

/-- The decorators directly before a node, in source order. -/
def decoratorsBefore (spine : Tree.Spine) : List Tree :=
  let earlier := (spine.head?.elim [] (·.earlier)).filter (·.label.named)
  (earlier.takeWhile (·.kind == "decorator")).reverse

namespace Document

/-- The decorators and annotations that belong to a declaration: those before it, those among its
modifiers and those among its children. -/
def attachedDecorators (doc : Document) (t : Tree) (spine : Tree.Spine) : List Tree :=
  decoratorsBefore spine ++ t.proper.flatMap fun child =>
    if child.kind == "modifiers" then child.proper.filter fun n => doc.role n == .decorator
    else if child.kind == "decorator" then [child]
    else []

/-- The record of an annotation, and its call. -/
def annotationFact (doc : Document) (t : Tree) : Decorator × Option CallFact :=
  let name := (doc.fieldText? t "name").getD ""
  let hasCall := t.kind == "annotation"
  let record : Decorator :=
    { expression := Text.collapse (Text.trimStartChar '@' (doc.textOf t))
      callee := name
      hasCall := hasCall }
  let call : CallFact :=
    { callee := name
      name := Text.lastSegment name
      kind := .decoratorCall
      arguments := doc.argumentShape (t.field? "arguments")
      extent := doc.extent t }
  (record, if hasCall then some call else none)

/-- The call that a decorator with call syntax makes. -/
def decoratorCall (doc : Document) (expression : Tree) : CallFact :=
  let callee := doc.callCallee expression
  { callee := callee.text
    name := callee.name
    receiver := callee.receiver.map (·.text)
    kind := .decoratorCall
    arguments := doc.argumentShape (expression.field? "arguments")
    extent := doc.extent expression }

/-- The record of a decorator, and its call if it is applied with call syntax. -/
def decoratorFact (doc : Document) (t : Tree) : Decorator × Option CallFact :=
  if t.kind == "annotation" || t.kind == "marker_annotation" then doc.annotationFact t
  else
    match t.firstProper? with
    | none => (⟨"", "", false⟩, none)
    | some expression =>
      let text := Text.collapse (doc.textOf expression)
      if doc.role expression = .call then
        (⟨text, (doc.callCallee expression).text, true⟩, some (doc.decoratorCall expression))
      else (⟨text, doc.normalized expression, false⟩, none)

end Document

end CodeAtlas
