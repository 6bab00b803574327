/-! A table that keeps texts under handles. A handle names its slot and how often the slot had been
emptied when the text came in, so that an old handle never finds a newer text in the same slot. -/
namespace XPath

structure Handle where
  index : UInt32
  generation : UInt32
  deriving DecidableEq, Inhabited

def Handle.description (h : Handle) : String :=
  s!"StrHandle \x7b index: {h.index}, generation: {h.generation} \x7d"

namespace Arena

structure Slot where
  generation : UInt32 := 0
  value : Option String := none
  deriving DecidableEq, Inhabited

/-- Emptying an occupied slot retires its generation. The count wraps. -/
def Slot.vacate (s : Slot) : Slot :=
  if s.value.isSome then ⟨s.generation + 1, none⟩ else s

end Arena

/-- The slots, the stack of empty ones to use next, and the number of occupied ones. -/
structure Arena where
  slots : Array Arena.Slot := #[]
  free : List UInt32 := []
  live : Nat := 0

namespace Arena

def slot? (a : Arena) (i : UInt32) : Option Slot :=
  a.slots[i.toNat]?

/-- Puts a value into a slot without touching its generation. -/
def fill (a : Arena) (i : UInt32) (s : String) : Handle × Arena :=
  (⟨i, ((a.slot? i).getD {}).generation⟩,
    { a with slots := a.slots.modify i.toNat ({ · with value := some s }), live := a.live + 1 })

/-- Keeps `s` in the slot emptied last, or in a new one if none is empty. -/
def register (a : Arena) (s : String) : Handle × Arena :=
  match a.free with
  | i :: free => { a with free }.fill i s
  | [] => { a with slots := a.slots.push {} }.fill (.ofNat a.slots.size) s

/-- The text under a handle, if the handle is still good. -/
def get? (a : Arena) (h : Handle) : Option String := do
  let slot ← a.slot? h.index
  if slot.generation = h.generation then slot.value else none

/-- Takes out the text under a handle. Nothing changes if the handle is not good. -/
def release? (a : Arena) (h : Handle) : Option (String × Arena) := do
  let s ← a.get? h
  return (s, { slots := a.slots.modify h.index.toNat Slot.vacate
               free := h.index :: a.free
               live := a.live - 1 })

/-- The occupied slots in ascending order. -/
def occupied (a : Arena) : List UInt32 :=
  let holds (i : Nat) := a.slots[i]?.any (·.value.isSome)
  ((List.range a.slots.size).filter holds).map UInt32.ofNat

/-- Empties the occupied slots in ascending order and says how many texts there were. -/
def releaseAll (a : Arena) : Nat × Arena :=
  (a.live, { slots := a.slots.map Slot.vacate
             free := a.occupied.reverse ++ a.free
             live := 0 })

def isEmpty (a : Arena) : Bool :=
  a.live == 0

end Arena
end XPath
