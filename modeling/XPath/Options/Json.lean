import XPath.JsonValue
import XPath.Options

/-! Options as JSON text. -/
namespace XPath.Options

/-- A number of levels: a plain integer of at most 64 bits. -/
def depth? : JsonValue → Option Nat
  | .number ds =>
    if ds.all Char.isDigit then
      let n := ds.foldl (fun n d => 10 * n + (d.toNat - '0'.toNat)) 0
      if n < UInt64.size then some n else none
    else none
  | _ => none

def flag? : JsonValue → Option Bool
  | .bool b => some b
  | _ => none

/-- Reads the member of that name by `read?`. It may be missing, but not appear twice. -/
def member {α : Type} (name : String) (read? : JsonValue → Option α) (missing : α)
    (members : List (Option String × JsonValue)) : Option α :=
  match members.filter (·.1 == some name) with
  | [] => some missing
  | [(_, v)] => read? v
  | _ => none

/-- Options by name or by position. Missing ones keep their defaults, unknown names are ignored as
long as they are sound text. -/
def ofValue? : JsonValue → Option Options
  | .object members => do
    guard (members.all (·.1.isSome))
    let maxDepth ← member "max-depth" depth? ({} : Options).maxDepth members
    let validateFunctions ←
      member "validate-functions" flag? ({} : Options).validateFunctions members
    return { maxDepth, validateFunctions }
  | .array [] => some {}
  | .array [d] => return { maxDepth := ← depth? d }
  | .array [d, v] => return { maxDepth := ← depth? d, validateFunctions := ← flag? v }
  | _ => none

def ofJson? (text : String) : Option Options :=
  JsonValue.ofString? text >>= ofValue?

/-- The options in compact form. -/
def toJson (o : Options) : String :=
  s!"\x7b\"max-depth\":{o.maxDepth},\"validate-functions\":{o.validateFunctions}\x7d"

end XPath.Options
