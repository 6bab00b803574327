/-! Reading JSON text as strictly as its grammar asks. -/
namespace XPath

/-- A value as it is written: numbers keep their spelling. A string whose escapes name half of a
surrogate pair alone is well formed but has no characters to offer. -/
inductive JsonValue
  | null
  | bool (b : Bool)
  | number (spelling : List Char)
  | string (content : Option String)
  | array (items : List JsonValue)
  | object (members : List (Option String × JsonValue))

namespace JsonValue

def isBlank (c : Char) : Bool :=
  c == ' ' || c == '\t' || c == '\n' || c == '\r'

def skipBlank (cs : List Char) : List Char :=
  cs.dropWhile isBlank

def hexDigit? (c : Char) : Option Nat :=
  if c.isDigit then some (c.toNat - '0'.toNat)
  else if 'a' ≤ c ∧ c ≤ 'f' then some (c.toNat - 'a'.toNat + 10)
  else if 'A' ≤ c ∧ c ≤ 'F' then some (c.toNat - 'A'.toNat + 10)
  else none

def escaped? : Char → Option Nat
  | '"' => some 0x22
  | '\\' => some 0x5C
  | '/' => some 0x2F
  | 'b' => some 0x08
  | 'f' => some 0x0C
  | 'n' => some 0x0A
  | 'r' => some 0x0D
  | 't' => some 0x09
  | _ => none

/-- The code points and escaped units of a string behind its opening quote, and the text behind its
closing one. -/
def units : List Char → Option (List Nat × List Char)
  | [] => none
  | '"' :: rest => some ([], rest)
  | '\\' :: 'u' :: a :: b :: c :: d :: rest => do
    let n := (← hexDigit? a) * 4096 + (← hexDigit? b) * 256 + (← hexDigit? c) * 16 + (← hexDigit? d)
    let (us, rest) ← units rest
    return (n :: us, rest)
  | '\\' :: c :: rest => do
    let n ← escaped? c
    let (us, rest) ← units rest
    return (n :: us, rest)
  | c :: rest => do
    if c.toNat < 0x20 then none
    let (us, rest) ← units rest
    return (c.toNat :: us, rest)

/-- Joins surrogate pairs. Half a pair alone is no character. -/
def joinPairs : List Nat → Option (List Char)
  | [] => some []
  | u :: rest =>
    if 0xD800 ≤ u ∧ u < 0xDC00 then
      match rest with
      | v :: rest =>
        if 0xDC00 ≤ v ∧ v < 0xE000 then
          (joinPairs rest).map (.ofNat (0x10000 + (u - 0xD800) * 1024 + (v - 0xDC00)) :: ·)
        else none
      | [] => none
    else if 0xDC00 ≤ u ∧ u < 0xE000 then none
    else (joinPairs rest).map (.ofNat u :: ·)

/-- A string behind its opening quote. -/
def string? (cs : List Char) : Option (Option String × List Char) := do
  let (us, rest) ← units cs
  return ((joinPairs us).map String.ofList, rest)

/-- At least one digit. -/
def digits? (cs : List Char) : Option (List Char × List Char) :=
  match cs.takeWhile Char.isDigit with
  | [] => none
  | ds => some (ds, cs.dropWhile Char.isDigit)

/-- An integer part: zero alone, or digits that do not begin with zero. -/
def whole? : List Char → Option (List Char × List Char)
  | '0' :: rest => some (['0'], rest)
  | cs => digits? cs

def fraction? : List Char → Option (List Char × List Char)
  | '.' :: rest => (digits? rest).map fun (ds, rest) => ('.' :: ds, rest)
  | cs => some ([], cs)

def exponent? : List Char → Option (List Char × List Char)
  | c :: rest =>
    if c == 'e' || c == 'E' then
      let (sign, rest) := match rest with
        | '+' :: rest => (['+'], rest)
        | '-' :: rest => (['-'], rest)
        | _ => ([], rest)
      (digits? rest).map fun (ds, rest) => (c :: sign ++ ds, rest)
    else some ([], c :: rest)
  | [] => some ([], [])

def number? (cs : List Char) : Option (List Char × List Char) := do
  let (sign, cs) := match cs with
    | '-' :: rest => (['-'], rest)
    | _ => ([], cs)
  let (whole, cs) ← whole? cs
  let (fraction, cs) ← fraction? cs
  let (exponent, cs) ← exponent? cs
  return (sign ++ whole ++ fraction ++ exponent, cs)

/-! Values take two levels of the bound for each bracket: one for themselves, one for their items. -/
mutual

/-- A value at the beginning of the text, which must not be blank. -/
def value? : Nat → List Char → Option (JsonValue × List Char)
  | 0, _ => none
  | n + 1, cs =>
    match cs with
    | 'n' :: 'u' :: 'l' :: 'l' :: rest => some (null, rest)
    | 't' :: 'r' :: 'u' :: 'e' :: rest => some (bool true, rest)
    | 'f' :: 'a' :: 'l' :: 's' :: 'e' :: rest => some (bool false, rest)
    | '"' :: rest => (string? rest).map fun (s, rest) => (string s, rest)
    | '[' :: rest =>
      match skipBlank rest with
      | ']' :: rest => some (array [], rest)
      | cs => (items? n cs).map fun (vs, rest) => (array vs, rest)
    | '{' :: rest =>
      match skipBlank rest with
      | '}' :: rest => some (object [], rest)
      | cs => (members? n cs).map fun (ms, rest) => (object ms, rest)
    | cs => (number? cs).map fun (ds, rest) => (number ds, rest)

/-- The items of an array, at least one, up to its closing bracket. -/
def items? : Nat → List Char → Option (List JsonValue × List Char)
  | 0, _ => none
  | n + 1, cs => do
    let (v, rest) ← value? n cs
    match skipBlank rest with
    | ']' :: rest => some ([v], rest)
    | ',' :: rest =>
      let (vs, rest) ← items? n (skipBlank rest)
      some (v :: vs, rest)
    | _ => none

/-- The members of an object, at least one, up to its closing brace. -/
def members? : Nat → List Char → Option (List (Option String × JsonValue) × List Char)
  | 0, _ => none
  | n + 1, cs =>
    match cs with
    | '"' :: rest => do
      let (key, rest) ← string? rest
      match skipBlank rest with
      | ':' :: rest =>
        let (v, rest) ← value? n (skipBlank rest)
        match skipBlank rest with
        | '}' :: rest => some ([(key, v)], rest)
        | ',' :: rest =>
          let (ms, rest) ← members? n (skipBlank rest)
          some ((key, v) :: ms, rest)
        | _ => none
      | _ => none
    | _ => none

end

/-- The value that is the whole of a text, blanks around it apart. -/
def ofString? (s : String) : Option JsonValue := do
  let cs := skipBlank s.toList
  let (v, rest) ← value? (2 * cs.length + 1) cs
  if (skipBlank rest).isEmpty then some v else none

end JsonValue
end XPath
