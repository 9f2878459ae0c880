import CodeAtlas.Graph.Lookup

/-!
# Linking calls

Every call is linked by itself, by the kind that its syntax gave it. The kind is refined on the way:
calling a class is a constructor call, calling a function of a class or module by its qualifier is
a static call, and calling a builtin is a builtin call.
-/

namespace CodeAtlas.Tables

/-- The kind and the target of a call. -/
abbrev Linked := CallKind × CallTarget

/-- The target for a symbol that may not have been found. -/
def targetOf (found : Option Nat) : CallTarget := found.elim .unresolved .symbol

/-- Link a call without a receiver. -/
def linkDirect (tables : Tables) (config : ResolutionConfig) (call : CallEdge) : Judged Linked :=
  let (meaning, doubts) := tables.lookupName config call.module call.caller call.callee
  let linked := match meaning with
    | .symbol id =>
      if tables.isClass id then (.constructor, tables.constructorTarget config id)
      else (call.kind, .symbol id)
    | .external name => (call.kind, .external name)
    | .builtin name => (.builtin, .builtin name)
    | .module _ | .unknown => (call.kind, .unresolved)
  (linked, doubts)

/-- Link a call of a name of a module. -/
def linkInModule (tables : Tables) (config : ResolutionConfig) (module : Nat) (name : String) :
    Linked :=
  match (tables.topLevelNamed module name).head? with
  | some id =>
    if tables.isClass id then (.constructor, tables.constructorTarget config id)
    else (.static, .symbol id)
  | none => (.static, .unresolved)

/-- Link a call whose receiver is a qualified name with a meaning. -/
def linkQualified (tables : Tables) (config : ResolutionConfig) (call : CallEdge)
    (meaning : Meaning) : Linked :=
  match meaning with
  | .symbol id =>
    if tables.isClass id then (.static, targetOf (tables.member? config id call.name))
    else (.method, .unresolved)
  | .module m => tables.linkInModule config m call.name
  | .external name => (.static, .external (name ++ tables.separator call.module ++ call.name))
  | .builtin _ | .unknown =>
    if tables.isBuiltin config call.module call.callee then (.builtin, .builtin call.callee)
    else (.method, .unresolved)

/-- Link a call with a receiver. The instance itself means the members of the enclosing class, the
base classes mean its inherited ones. -/
def linkMember (tables : Tables) (config : ResolutionConfig) (call : CallEdge) (receiver : String) :
    Judged Linked :=
  let g := tables.grammar call.module
  let enclosing := tables.enclosingClass? call.caller
  if g.isSuper receiver then
    ((.method, targetOf (enclosing.bind fun c => tables.inherited? config c call.name)), [])
  else if g.isSelf receiver || tables.isOwnReceiver call.caller receiver then
    ((.method, targetOf (enclosing.bind fun c => tables.member? config c call.name)), [])
  else
    let (meaning, doubts) := tables.lookupPath config call.module call.caller receiver
    (tables.linkQualified config call meaning, doubts)

/-- Link a call with or without a receiver. -/
def linkByReceiver (tables : Tables) (config : ResolutionConfig) (call : CallEdge) :
    Judged Linked :=
  match call.receiver with
  | some receiver => tables.linkMember config call receiver
  | none => tables.linkDirect config call

/-- The target of an explicit constructor call: the class around it, its first base class, or the
class that the callee names. -/
def linkConstructor (tables : Tables) (config : ResolutionConfig) (call : CallEdge) :
    Judged CallTarget :=
  let g := tables.grammar call.module
  let enclosing := tables.enclosingClass? call.caller
  let constructed (found : Option Nat) : CallTarget :=
    found.elim .unresolved (tables.constructorTarget config)
  if g.isSelf call.callee then (constructed enclosing, [])
  else if g.isSuper call.callee then
    (constructed (enclosing.bind fun c => (tables.baseClasses c).head?), [])
  else
    let (meaning, doubts) := tables.lookupPath config call.module call.caller call.callee
    match meaning with
    | .symbol id => (constructed ((some id).filter tables.isClass), doubts)
    | .external name => (.external name, doubts)
    | _ => (.unresolved, doubts)

/-- What becomes of a call. -/
def judgeCall (tables : Tables) (config : ResolutionConfig) (call : CallEdge) : Judged Linked :=
  match call.kind with
  | .direct => tables.linkDirect config call
  | .method => tables.linkByReceiver config call
  | .constructor =>
    let (target, doubts) := tables.linkConstructor config call
    ((.constructor, target), doubts)
  | .decoratorCall =>
    let ((_, target), doubts) := tables.linkByReceiver config call
    ((.decoratorCall, target), doubts)
  | .literalReceiver =>
    if tables.isBuiltin config call.module call.name then
      ((.literalReceiver, .builtin call.name), [])
    else ((.literalReceiver, .unresolved), [])
  | kind => ((kind, .unresolved), [])

/-- A call with what becomes of it, and the doubts about that. -/
def linkCall (tables : Tables) (config : ResolutionConfig) (call : CallEdge) : Judged CallEdge :=
  let ((kind, target), doubts) := tables.judgeCall config call
  ({ call with kind := kind, target := target }, doubts)

/-- Link every call. -/
def linkCalls (tables : Tables) (config : ResolutionConfig) : Tables :=
  let judged := tables.calls.map (tables.linkCall config)
  { tables with
    calls := judged.map (·.1)
    diagnostics := tables.diagnostics ++ judged.flatMap (·.2) }

end CodeAtlas.Tables
