import CodeAtlas.Text.Qualified
import CodeAtlas.Tree.Document

/-!
# Callees

How the thing that is called is written down. An expression has a normalized text, in which a
nested call is `f()`, a literal is a word such as `<str>`, and parentheses, `await` and type
arguments are looked through. A callee is the normalized text split into a receiver and a name, so
that in a chain of calls the receiver of each link is the text of the previous call.
-/

namespace CodeAtlas

/-- What stands before the last separator of a callee. -/
inductive ReceiverSource where
  /-- The result of another call. -/
  | call
  | literal
  /-- Anything else, usually a name or a path. -/
  | named
deriving DecidableEq

/-- The receiver of a callee. -/
structure Receiver where
  text : String
  source : ReceiverSource
deriving DecidableEq

/-- A normalized callee, its last segment and its receiver. -/
structure Callee where
  text : String := ""
  name : String := ""
  receiver : Option Receiver := none
deriving DecidableEq

namespace Document

/-- The position of the expression inside a wrapper such as parentheses, `await` or type
arguments. -/
def innerIndex? (doc : Document) (t : Tree) : Option Nat :=
  (doc.grammar.inner? t.kind).bind fun inner => t.children.findIdx? inner.selects

/-- The expression inside all wrappers. -/
def unwrap (doc : Document) (t : Tree) : Tree := t.follow doc.innerIndex?

/-- The separator that a member access is written with. -/
def separatorOf (doc : Document) (t : Tree) (shape : MemberShape) : String :=
  (doc.fieldText? t "operator").getD shape.separator

/-- The name that a member access selects. -/
def memberName (doc : Document) (t : Tree) (shape : MemberShape) : String :=
  ((t.field? shape.name).map fun n => doc.textOf (doc.unwrap n)).getD ""

/-- Is the node a call whose receiver and name are its own fields? -/
def isMethodInvocation (kind : String) : Bool := kind == "method_invocation"

/-- The type that a constructor call names, without type arguments. -/
def constructedType (doc : Document) (t : Tree) : String :=
  match (t.field? "type").or (t.field? "constructor") with
  | some type => Text.collapse (Text.withoutGenerics (doc.textOf type))
  | none => ""

/-- The name of an invoked macro, with its exclamation mark. -/
def macroName (doc : Document) (t : Tree) : String := (doc.fieldText? t "macro").getD "" ++ "!"

mutual

/-- The normalized text of an expression. -/
def normalized (doc : Document) : Tree → String
  | .node label children =>
    let t := Tree.node label children
    match (doc.grammar.inner? label.kind).bind fun inner =>
        normalizedFirst doc inner.selects children with
    | some text => text
    | none =>
      match doc.grammar.literal? label.kind, doc.grammar.member? label.kind with
      | some word, _ => "<" ++ word ++ ">"
      | none, some shape =>
        match normalizedFirst doc (Tree.inField shape.object) children with
        | some object => object ++ doc.separatorOf t shape ++ doc.memberName t shape
        | none => doc.memberName t shape
      | none, none =>
        match doc.role t with
        | .call =>
          if isMethodInvocation label.kind then
            let name := (doc.fieldText? t "name").getD ""
            match normalizedFirst doc (Tree.inField "object") children with
            | some object => object ++ "." ++ name ++ "()"
            | none => name ++ "()"
          else (normalizedFirst doc (Tree.inField "function") children).getD "" ++ "()"
        | .constructorCall => "new " ++ doc.constructedType t ++ "()"
        | .macroCall => doc.macroName t ++ "()"
        | _ => Text.collapse (doc.textOf t)

/-- The normalized text of the first of several trees that satisfies a condition. -/
def normalizedFirst (doc : Document) (selects : Tree → Bool) : List Tree → Option String
  | [] => none
  | t :: ts => if selects t then some (normalized doc t) else normalizedFirst doc selects ts

end

/-- What kind of expression a receiver is. -/
def receiverSource (doc : Document) (object : Tree) : ReceiverSource :=
  let object := doc.unwrap object
  if (doc.grammar.literal? object.kind).isSome then .literal
  else
    match doc.role object with
    | .call | .constructorCall | .macroCall => .call
    | _ => .named

/-- A callee that selects a name of an object. A receiver that means the base classes counts as
a name even where it is written as a call. -/
def calleeOn (doc : Document) (object : Tree) (separator name : String) : Callee :=
  let text := doc.normalized object
  let source := if doc.grammar.isSuper text then .named else doc.receiverSource object
  { text := text ++ separator ++ name, name := name, receiver := some ⟨text, source⟩ }

/-- The callee that an expression denotes. -/
def calleeOf (doc : Document) (t : Tree) : Callee :=
  let t := doc.unwrap t
  match doc.grammar.member? t.kind with
  | some shape =>
    let name := doc.memberName t shape
    match t.field? shape.object with
    | some object => doc.calleeOn object (doc.separatorOf t shape) name
    | none => { text := name, name := name }
  | none =>
    let text := doc.normalized t
    { text := text, name := Text.lastSegment text }

/-- The callee of a call. -/
def callCallee (doc : Document) (call : Tree) : Callee :=
  if isMethodInvocation call.kind then
    let name := (doc.fieldText? call "name").getD ""
    match call.field? "object" with
    | some object => doc.calleeOn object "." name
    | none => { text := name, name := name }
  else ((call.field? "function").map doc.calleeOf).getD {}

/-- The callee of a constructor call; a qualified type name gives it a receiver. -/
def constructorCallee (doc : Document) (t : Tree) : Callee :=
  let text := doc.constructedType t
  let name := Text.lastSegment text
  let qualifier := (Text.Chars.dropEnd? name.toList text.toList).map
    (Text.Chars.trimEnd fun c => c == '.' || c == ':')
  { text := text
    name := name
    receiver := (qualifier.filter fun q => !q.isEmpty).map fun q => ⟨.ofList q, .named⟩ }

/-- The callee of a macro invocation. -/
def macroCallee (doc : Document) (t : Tree) : Callee :=
  let text := doc.macroName t
  { text := text, name := Text.lastSegment text }

/-- The number of groups between commas inside the delimiters of a macro invocation. -/
def macroArgumentCount (tokens : List Tree) : Nat :=
  let inside := (tokens.drop 1).dropLast
  if tokens.length ≤ 2 then 0
  else
    let commas := inside.countP (·.kind == ",")
    let trailing := inside.getLast?.any (·.kind == ",")
    commas + 1 - (if trailing then 1 else 0)

/-- Count one child of an argument list. A trailing `...` unpacks the argument before it. -/
def countArgument (doc : Document) (shape : Arguments) (child : Tree) : Arguments :=
  if !child.label.named then
    if child.kind == "..." then { shape with star := true, positional := shape.positional - 1 }
    else shape
  else if child.isComment || child.kind == "attribute_item" then shape
  else
    match child.kind with
    | "list_splat" | "spread_element" | "variadic_argument" => { shape with star := true }
    | "dictionary_splat" => { shape with doubleStar := true }
    | "keyword_argument" =>
      { shape with named := shape.named ++ (doc.fieldText? child "name").toList }
    | "element_value_pair" =>
      { shape with named := shape.named ++ (doc.fieldText? child "key").toList }
    | _ => { shape with positional := shape.positional + 1 }

/-- The shape of an argument list. A generator or a template stands for one argument. -/
def argumentShape (doc : Document) : Option Tree → Arguments
  | none => {}
  | some list =>
    match list.kind with
    | "generator_expression" | "template_string" => { positional := 1 }
    | "token_tree" => { positional := macroArgumentCount list.children }
    | _ => list.children.foldl doc.countArgument {}

end Document

end CodeAtlas
