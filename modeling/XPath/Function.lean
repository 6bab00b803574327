/-! The functions that may be called, by name and number of arguments. -/
namespace XPath

/-- How many arguments a function takes. No maximum means any number from `min` on. -/
structure Arity where
  min : Nat
  max : Option Nat
  deriving DecidableEq

namespace Arity

def exactly (n : Nat) : Arity := ⟨n, some n⟩

def between (min max : Nat) : Arity := ⟨min, some max⟩

def atLeast (min : Nat) : Arity := ⟨min, none⟩

def accepts (a : Arity) (count : Nat) : Bool :=
  a.min ≤ count && a.max.all (count ≤ ·)

def description (a : Arity) : String :=
  let max := match a.max with
    | some n => s!"Some({n})"
    | none => "None"
  s!"Arity \x7b min: {a.min}, max: {max} \x7d"

end Arity

/-- Functions in the order in which their names were first registered. -/
structure Registry where
  entries : List (String × Arity) := []
  deriving DecidableEq

/-- Why a call is refused. -/
inductive CallFault
  | unknown
  | wrongArity (expected : Arity)
  deriving DecidableEq

namespace Registry

/-- Replaces the entry of that name, or adds one behind the others. -/
def put (name : String) (arity : Arity) : List (String × Arity) → List (String × Arity)
  | [] => [(name, arity)]
  | (n, a) :: rest => if n = name then (name, arity) :: rest else (n, a) :: put name arity rest

/-- Adds a function, or replaces the one of that name. -/
def register (r : Registry) (name : String) (arity : Arity) : Registry :=
  ⟨put name arity r.entries⟩

def get? (r : Registry) (name : String) : Option Arity :=
  r.entries.lookup name

def size (r : Registry) : Nat :=
  r.entries.length

/-- Whether a call of `name` with `count` arguments is allowed. -/
def check (r : Registry) (name : String) (count : Nat) : Except CallFault Unit :=
  match r.get? name with
  | none => .error .unknown
  | some arity => if arity.accepts count then .ok () else .error (.wrongArity arity)

/-- The core function library of XPath 1.0. -/
def core : Registry where
  entries := [
    ("last", .exactly 0),
    ("position", .exactly 0),
    ("count", .exactly 1),
    ("id", .exactly 1),
    ("local-name", .between 0 1),
    ("namespace-uri", .between 0 1),
    ("name", .between 0 1),
    ("string", .between 0 1),
    ("concat", .atLeast 2),
    ("starts-with", .exactly 2),
    ("contains", .exactly 2),
    ("substring-before", .exactly 2),
    ("substring-after", .exactly 2),
    ("substring", .between 2 3),
    ("string-length", .between 0 1),
    ("normalize-space", .between 0 1),
    ("translate", .exactly 3),
    ("boolean", .exactly 1),
    ("not", .exactly 1),
    ("true", .exactly 0),
    ("false", .exactly 0),
    ("lang", .exactly 1),
    ("number", .between 0 1),
    ("sum", .exactly 1),
    ("floor", .exactly 1),
    ("ceiling", .exactly 1),
    ("round", .exactly 1)]

end Registry
end XPath
