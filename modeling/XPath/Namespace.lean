/-! Expanding qualified names by the namespaces in scope. -/
namespace XPath

/-- A way to find the namespace for the part of a name before its colon. -/
structure Resolver where
  lookup : String → Option String
  /-- The element at which names are looked up, mentioned in the log when nothing is found. -/
  element : Option String := none

namespace Resolver

/-- The first binding of a name counts. -/
def firstOf (bindings : List (String × String)) : Resolver where
  lookup name := bindings.lookup name

/-- Later bindings replace earlier ones. -/
def lastOf (bindings : List (String × String)) : Resolver :=
  firstOf bindings.reverse

/-- The declarations in scope at the last of nested elements, given from the root inwards. The
nearest declaration counts. The default namespace, declared for the empty name, and the reserved name
`xml` are never found. -/
def ofElement (declarations : List (List (String × String))) (element : String) : Resolver where
  lookup name :=
    if name == "" || name == "xml" then none
    else declarations.reverse.findSome? (·.lookup name)
  element := element

end Resolver

structure ExpandedName where
  localName : String
  uri : Option String
  deriving DecidableEq

/-- Splits at the first colon. -/
def splitQName (name : List Char) : Option (List Char × List Char) :=
  match name.dropWhile (· != ':') with
  | [] => none
  | _ :: localName => some (name.takeWhile (· != ':'), localName)

/-- Expands a name. One without a colon has no namespace; otherwise the part before the first colon
must be bound, and is the error if it is not. -/
def expandName (resolver : Option Resolver) (name : String) : Except String ExpandedName :=
  match splitQName name.toList with
  | none => .ok ⟨name, none⟩
  | some (short, localName) =>
    let short := String.ofList short
    match resolver.bind (·.lookup short) with
    | some uri => .ok ⟨String.ofList localName, some uri⟩
    | none => .error short

end XPath
