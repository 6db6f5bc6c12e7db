import EditorScripting.Host.Object

/-!
A heap of slots with generations and pins. Slots are reused after a collection, last freed first,
and each reuse moves the slot to its next generation, so that handles of earlier occupants are
recognised as stale.
-/
namespace EditorScripting.Host

/-- One place of the heap. An empty slot keeps the generation of its last occupant. -/
structure Slot (α : Type) where
  generation : UInt32
  value : Option α
  pins : Nat

/-- The slots, and the empty ones among them as a stack. -/
structure Heap (α : Type) where
  slots : Array (Slot α)
  free : List UInt32

namespace Heap

variable {α : Type}

def empty : Heap α := ⟨#[], []⟩

/-- Puts a value into the slot freed last, or into a new slot. -/
def alloc (heap : Heap α) (value : α) : Handle × Heap α :=
  match heap.free with
  | index :: free =>
    let generation := (heap.slots[index.toNat]?.map (·.generation + 1)).getD 0
    (⟨index, generation⟩,
      { slots := heap.slots.setIfInBounds index.toNat ⟨generation, some value, 0⟩, free })
  | [] =>
    (⟨UInt32.ofNat heap.slots.size, 0⟩,
      { heap with slots := heap.slots.push ⟨0, some value, 0⟩ })

/-- The slot that a handle names, unless the handle is stale. -/
def slot? (heap : Heap α) (h : Handle) : Option (Slot α) :=
  heap.slots[h.index.toNat]?.filter fun s => s.generation == h.generation && s.value.isSome

/-- The value that a handle names, unless the handle is stale. -/
def get? (heap : Heap α) (h : Handle) : Option α := (heap.slot? h).bind (·.value)

def get (heap : Heap α) (h : Handle) : Except HostError α :=
  match heap.get? h with
  | some value => .ok value
  | none => .error (.reclaimed h)

def isLive (heap : Heap α) (h : Handle) : Bool := (heap.slot? h).isSome

/-- The number of pins on a handle; a stale handle has none. -/
def pinCount (heap : Heap α) (h : Handle) : Nat := ((heap.slot? h).map (·.pins)).getD 0

/-- Changes the pins of a live handle and nothing else. -/
def modifyPins (heap : Heap α) (h : Handle) (f : Nat → Nat) : Heap α :=
  if heap.isLive h then
    { heap with slots := heap.slots.modify h.index.toNat fun s => { s with pins := f s.pins } }
  else heap

/-- Keeps a live value alive until a matching `unpin`. -/
def pin (heap : Heap α) (h : Handle) : Except HostError Unit × Heap α :=
  if heap.isLive h then (.ok (), heap.modifyPins h (· + 1)) else (.error (.reclaimed h), heap)

/-- Takes one pin away. A stale handle and a handle without pins stay as they are. -/
def unpin (heap : Heap α) (h : Handle) : Heap α := heap.modifyPins h (· - 1)

/-- The number of slots in use. -/
def liveCount (heap : Heap α) : Nat := heap.slots.toList.countP (·.value.isSome)

/-- The slot holds a value that is neither pinned nor among the roots. -/
def isGarbage (roots : List Handle) (index : Nat) (s : Slot α) : Bool :=
  s.value.isSome && s.pins == 0 && !roots.contains ⟨UInt32.ofNat index, s.generation⟩

/-- The slots that a collection empties, in ascending order. -/
def garbage (heap : Heap α) (roots : List Handle) : List Nat :=
  (List.range heap.slots.size).filter fun i =>
    heap.slots[i]?.any (isGarbage roots i)

/-- Empties every slot that is neither pinned nor among the roots and returns their number. The
emptied slots go onto the stack of free slots in ascending order. -/
def collect (heap : Heap α) (roots : List Handle) : Nat × Heap α :=
  let doomed := heap.garbage roots
  (doomed.length,
    { slots := heap.slots.mapIdx fun i s =>
        if isGarbage roots i s then { s with value := none } else s
      free := (doomed.map UInt32.ofNat).reverse ++ heap.free })

end Heap

end EditorScripting.Host
