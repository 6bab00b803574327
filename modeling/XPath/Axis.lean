/-! The thirteen axes along which a location step moves. -/
namespace XPath

inductive Axis
  | ancestor
  | ancestorOrSelf
  | attributes
  | child
  | descendant
  | descendantOrSelf
  | following
  | followingSibling
  | namespaces
  | parent
  | preceding
  | precedingSibling
  | self
  deriving DecidableEq, Inhabited

namespace Axis

/-- The spelling before `::`. -/
def name : Axis → String
  | ancestor => "ancestor"
  | ancestorOrSelf => "ancestor-or-self"
  | attributes => "attribute"
  | child => "child"
  | descendant => "descendant"
  | descendantOrSelf => "descendant-or-self"
  | following => "following"
  | followingSibling => "following-sibling"
  | namespaces => "namespace"
  | parent => "parent"
  | preceding => "preceding"
  | precedingSibling => "preceding-sibling"
  | self => "self"

/-- The label under which log lines show an axis. -/
def label : Axis → String
  | ancestor => "Ancestor"
  | ancestorOrSelf => "AncestorOrSelf"
  | attributes => "Attribute"
  | child => "Child"
  | descendant => "Descendant"
  | descendantOrSelf => "DescendantOrSelf"
  | following => "Following"
  | followingSibling => "FollowingSibling"
  | namespaces => "Namespace"
  | parent => "Parent"
  | preceding => "Preceding"
  | precedingSibling => "PrecedingSibling"
  | self => "SelfAxis"

def all : List Axis :=
  [ancestor, ancestorOrSelf, attributes, child, descendant, descendantOrSelf, following,
    followingSibling, namespaces, parent, preceding, precedingSibling, self]

/-- The axis of that spelling, if there is one. Case matters. -/
def ofName? (s : String) : Option Axis :=
  all.find? (·.name == s)

theorem mem_all (a : Axis) : a ∈ all := by
  cases a <;> decide

end Axis
end XPath
