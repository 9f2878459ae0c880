import CodeAtlas.Facts.Outline

/-!
# From an outline to declarations

Methods that are written outside of their type move under it, implemented traits become bases, and
in C and C++ repeated declarations of one thing fold into one: a definition wins over prototypes of
a function, and the declaration inside of a class over a definition outside of it.

Folding keeps the order of what remains and sends every reference to the declaration that remains
for the one it meant.
-/

namespace CodeAtlas

namespace Outline

/-- The first entry that satisfies a condition. -/
def firstIndex? (entries : List Entry) (p : Entry → Bool) : Option Nat := entries.findIdx? p

/-- The first class of the module with a name. -/
def classNamed? (entries : List Entry) (name : String) : Option Nat :=
  firstIndex? entries fun e =>
    e.declaration.kind == .classLike && e.declaration.parent.isNone && e.declaration.name == name

/-- Put a declaration without a parent under the class that it names as its owner. -/
def attachOwner (entries : List Entry) (e : Entry) : Entry :=
  let d := e.declaration
  if d.parent.isSome || d.kind == .classLike then e
  else
    match d.owner.bind (classNamed? entries) with
    | some index => { e with declaration := { d with parent := some index } }
    | none => e

/-- Add a base to the entry at an index, unless it has it. -/
def addBase (entries : List Entry) (index : Nat) (base : String) : List Entry :=
  entries.modify index fun e =>
    if e.declaration.bases.contains base then e
    else { e with declaration := { e.declaration with bases := e.declaration.bases ++ [base] } }

/-- Add the traits that types implement to their bases. -/
def attachTraits (entries : List Entry) (traits : List (String × String)) : List Entry :=
  traits.foldl (fun acc (owner, trait) =>
    match classNamed? entries owner with
    | some index => addBase acc index trait
    | none => acc) entries

/-- The entries with their owners and traits attached. -/
def attached (out : Outline) : List Entry :=
  attachTraits (out.entries.map (attachOwner out.entries)) out.traits

/-- Is the entry a function of the module? -/
def isModuleFunction (e : Entry) : Bool :=
  e.declaration.parent.isNone && e.declaration.kind == .function

/-- The entry that remains for a function of the module: its first definition, or else its first
prototype. -/
def functionSurvivor? (entries : List Entry) (name : String) : Option Nat :=
  let named (e : Entry) : Bool := isModuleFunction e && e.declaration.name == name
  (firstIndex? entries fun e => named e && !e.isPrototype).or
    (firstIndex? entries fun e => named e && e.isPrototype)

/-- The prototype that remains for a member of a class. -/
def memberSurvivor? (entries : List Entry) (parent : Nat) (name : String) : Option Nat :=
  firstIndex? entries fun e =>
    e.declaration.parent == some parent && e.isPrototype && e.declaration.name == name

/-- The other entry that remains for the entry at an index, if that one is dropped. -/
def survivor? (entries : List Entry) (index : Nat) : Option Nat :=
  match entries[index]? with
  | none => none
  | some e =>
    if e.isPrototype then
      if isModuleFunction e then
        (functionSurvivor? entries e.declaration.name).filter (· != index)
      else none
    else if e.declaration.owner.isSome then
      e.declaration.parent.bind fun parent => memberSurvivor? entries parent e.declaration.name
    else none

/-- Is the entry at an index kept? -/
def isKept (entries : List Entry) (index : Nat) : Bool := (survivor? entries index).isNone

/-- The new index of what remains for the entry at an index. -/
def newIndex (entries : List Entry) (index : Nat) : Nat :=
  let target := (survivor? entries index).getD index
  (List.range target).countP (isKept entries)

/-- The entries that remain, with their parents renumbered. -/
def kept (entries : List Entry) : List Declaration :=
  (entries.zipIdx.filter fun (_, index) => isKept entries index).map fun (e, _) =>
    { e.declaration with parent := e.declaration.parent.map (newIndex entries) }

/-- Fold repeated declarations. -/
def fold (entries : List Entry) (out : Outline) :
    List Declaration × List ((Nat × Nat) × Nat) × List CallFact :=
  (kept entries,
    out.scopes.map fun (range, index) => (range, newIndex entries index),
    out.decoratorCalls.map fun call =>
      { call with
        caller := call.caller.map (newIndex entries)
        decorates := call.decorates.map (newIndex entries) })

/-- The declarations of an outline, the scopes that they open, and the calls of their
decorators. -/
def finish (lang : Language) (out : Outline) :
    List Declaration × List ((Nat × Nat) × Nat) × List CallFact :=
  let entries := out.attached
  if lang.isCFamily then fold entries out
  else (entries.map (·.declaration), out.scopes, out.decoratorCalls)

end Outline

end CodeAtlas
