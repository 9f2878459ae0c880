import CodeAtlas.Facts.Outline

/-!
# Calls

The calls of a document in the order of their evaluation: the calls in a receiver and in the
arguments come before the call that uses them. Each call remembers the scopes around it, so that it
can be given to the innermost declaration. A decorator with call syntax is left out here, since the
outline records it, but the calls inside of it are not.
-/

namespace CodeAtlas

/-- A call and the ranges of the scopes around it, innermost first. -/
structure CallSite where
  call : CallFact
  scopes : List (Nat × Nat)

/-- Children of a declaration that are evaluated outside of it. -/
def isPrelude (t : Tree) : Bool := t.kind == "decorator" || t.kind == "modifiers"

namespace Document

/-- A call with its callee, as a site. -/
def siteOf (doc : Document) (t : Tree) (scopes : List (Nat × Nat)) (callee : Callee)
    (kind : CallKind) (arguments : Option Tree) : CallSite where
  call :=
    { callee := callee.text
      name := callee.name
      receiver := callee.receiver.map (·.text)
      kind := kind
      arguments := doc.argumentShape arguments
      extent := doc.extent t }
  scopes := scopes

/-- The kind of a call by what stands before its name. -/
def callKind (callee : Callee) : CallKind :=
  match callee.receiver.map Receiver.source with
  | none => .direct
  | some .call => .chained
  | some .literal => .literalReceiver
  | some .named => .method

/-- The site of a plain call. Calling the base class itself is a constructor call. -/
def callSite (doc : Document) (t : Tree) (scopes : List (Nat × Nat)) : CallSite :=
  let callee := doc.callCallee t
  let kind :=
    if (t.field? "function").any (·.kind == "super") then .constructor else callKind callee
  doc.siteOf t scopes callee kind (t.field? "arguments")

/-- The site of a constructor call. -/
def constructorSite (doc : Document) (t : Tree) (scopes : List (Nat × Nat)) : CallSite :=
  doc.siteOf t scopes (doc.constructorCallee t) .constructor (t.field? "arguments")

/-- The site of a macro invocation. -/
def macroSite (doc : Document) (t : Tree) (scopes : List (Nat × Nat)) : CallSite :=
  doc.siteOf t scopes (doc.macroCallee t) .direct (t.proper.find? (·.kind == "token_tree"))

/-- The site that a node is by itself. -/
def ownSite (doc : Document) (t : Tree) (scopes : List (Nat × Nat)) : List CallSite :=
  match doc.role t with
  | .call => [doc.callSite t scopes]
  | .constructorCall => [doc.constructorSite t scopes]
  | .macroCall => [doc.macroSite t scopes]
  | _ => []

mutual

/-- The calls of a tree in the order of their evaluation. -/
def callSites (doc : Document) (scopes : List (Nat × Nat)) : Tree → List CallSite
  | .node label children =>
    let t := Tree.node label children
    if doc.opensScope t then
      sitesAmong doc scopes isPrelude children ++
        sitesAmong doc (t.range :: scopes) (fun c => !isPrelude c) children
    else if label.kind == "decorator" && doc.role t == .decorator then
      decoratorSites doc scopes children
    else sitesAmong doc scopes (fun _ => true) children ++ doc.ownSite t scopes

/-- The calls of those of several trees that carry meaning and satisfy a condition. -/
def sitesAmong (doc : Document) (scopes : List (Nat × Nat)) (keep : Tree → Bool) :
    List Tree → List CallSite
  | [] => []
  | t :: ts =>
    (if t.isProper && keep t then callSites doc scopes t else []) ++ sitesAmong doc scopes keep ts

/-- The calls below a node, without the node itself. -/
def sitesInside (doc : Document) (scopes : List (Nat × Nat)) : Tree → List CallSite
  | .node _ children => sitesAmong doc scopes (fun _ => true) children

/-- The calls of the children of a decorator. When its expression is a call, only those inside of
that call. -/
def decoratorSites (doc : Document) (scopes : List (Nat × Nat)) : List Tree → List CallSite
  | [] => []
  | t :: ts =>
    if !t.isProper then decoratorSites doc scopes ts
    else if doc.role t == .call then sitesInside doc scopes t
    else callSites doc scopes t ++ sitesAmong doc scopes (fun _ => true) ts

end

end Document

namespace CallSite

/-- The call with the innermost declaration around it as its caller. -/
def attributed (site : CallSite) (scopes : List ((Nat × Nat) × Nat)) : CallFact :=
  { site.call with caller := site.scopes.findSome? fun range => scopes.lookup range }

end CallSite

end CodeAtlas
