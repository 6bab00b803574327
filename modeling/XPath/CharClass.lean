import XPath.CharClass.Ranges
import XPath.CodePoint

/-! Which characters may start a name, continue one, or separate tokens. -/
namespace XPath

/-- The part a character may play in a name without a colon. -/
inductive CharClass
  | nameStart
  | nameContinuation
  | notPartOfName
  deriving DecidableEq, Inhabited

namespace CharClass

def name : CharClass → String
  | nameStart => "NameStart"
  | nameContinuation => "NameContinuation"
  | notPartOfName => "NotPartOfName"

/-- The class of a code point. No code point lies in both lists. -/
def ofCodePoint (n : Nat) : CharClass :=
  if CodePoint.within n startRanges then nameStart
  else if CodePoint.within n continuationRanges then nameContinuation
  else notPartOfName

/-- The maximal runs of equal class from `first` to `last`, each given by where it begins.
Surrogates are no characters: they neither appear nor break a run. -/
def runs (first last : Nat) : List (Nat × CharClass) :=
  let points := List.range' first (min last 0x10FFFF + 1 - first)
  let extend (acc : List (Nat × CharClass)) (n : Nat) :=
    let c := ofCodePoint n
    match acc with
    | (_, previous) :: _ => if c = previous then acc else (n, c) :: acc
    | [] => [(n, c)]
  ((points.filter (fun n => n < 0xD800 || 0xDFFF < n)).foldl extend []).reverse

end CharClass

def classify (c : Char) : CharClass :=
  CharClass.ofCodePoint c.toNat

/-- The characters skipped between tokens: space, tab, line feed, vertical tab, form feed, return. -/
def isSpace (c : Char) : Bool :=
  c == ' ' || c == '\t' || c == '\n' || c == '\x0b' || c == '\x0c' || c == '\r'

end XPath
