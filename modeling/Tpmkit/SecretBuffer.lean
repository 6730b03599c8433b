import Tpmkit.PageLocks
import Tpmkit.UniqueOwnership

/-!
# Secret buffers

`secret_buffer` of `secret_buffer.cpp`: a nullable pointer to an `impl`, which
owns one vector, asks for its storage to be locked in RAM and clears it before
the storage is released.

Any number of buffers live side by side.  Constructions, moves and the start of
a destruction are one step each: all that another buffer can see of them is one
call of `mlock`.  The deletion of an `impl` goes statement by statement, so
the steps of other buffers fall between the statements of `clear()`.
-/

namespace Tpmkit.SecretBuffer

open UniqueOwnership

/-! ## Memory -/

/-- The storage of a vector. -/
structure MemoryRange where
  address : Nat
  size : Nat
deriving DecidableEq, Repr

/-- Some byte of the range lies on the page. -/
def MemoryRange.touches (range : MemoryRange) (pageSize page : Nat) : Bool :=
  range.size ≠ 0 && range.address / pageSize ≤ page &&
    page ≤ (range.address + range.size - 1) / pageSize

theorem MemoryRange.touches_of_lt {range : MemoryRange} {pageSize offset : Nat}
    (h : offset < range.size) :
    range.touches pageSize ((range.address + offset) / pageSize) = true := by
  have hfirst : range.address / pageSize ≤ (range.address + offset) / pageSize :=
    Nat.div_le_div_right (by omega)
  have hlast : (range.address + offset) / pageSize ≤
      (range.address + range.size - 1) / pageSize := Nat.div_le_div_right (by omega)
  have hsize : range.size ≠ 0 := by omega
  simp [touches, hfirst, hlast, hsize]

/-- `std::vector<std::uint8_t>`. -/
structure ByteVector where
  address : Nat
  bytes : List UInt8
deriving DecidableEq, Repr

def ByteVector.range (data : ByteVector) : MemoryRange := ⟨data.address, data.bytes.length⟩

/-- What the operating system and the allocator see of the vector that the
`impl` with the number `id` took. -/
inductive Event where
  | lockAttempt (id : Nat) (range : MemoryRange) (locked : Bool)
  | unlock (id : Nat) (range : MemoryRange)
  | cleanse (id : Nat) (range : MemoryRange)
  | release (id : Nat)
deriving DecidableEq, Repr

namespace Event

def id : Event → Nat
  | lockAttempt id _ _ => id
  | unlock id _ => id
  | cleanse id _ => id
  | release id => id

/-- The pages that the call leaves locked. -/
def locks (pageSize : Nat) : Event → Nat → Bool
  | lockAttempt _ range true, page => range.touches pageSize page
  | _, _ => false

/-- The pages that the call leaves unlocked. -/
def unlocks (pageSize : Nat) : Event → Nat → Bool
  | unlock _ range, page => range.touches pageSize page
  | _, _ => false

/-- Page locks do not nest: one `munlock` undoes every `mlock` of the page. -/
def apply (pageSize : Nat) (pages : Nat → Bool) (event : Event) : Nat → Bool := fun page =>
  (pages page && !event.unlocks pageSize page) || event.locks pageSize page

end Event

/-! ## The implementation object -/

/-- `secret_buffer::impl`. -/
structure Impl where
  data : ByteVector
  locked : Bool
deriving DecidableEq, Repr

/-- Where the life of an `impl` stands: in use, in front of a statement of its
destructor, or gone. -/
inductive Stage where
  | live
  | atUnlock
  | atCleanse
  | atClear
  | atRelease
  | released
deriving DecidableEq, Repr

/-- An `impl` on the heap.  `given` and `granted` keep the vector it was
constructed from and the outcome of its lock attempt. -/
structure HeapImpl where
  given : ByteVector
  granted : Bool
  impl : Impl
  stage : Stage
deriving DecidableEq, Repr

namespace HeapImpl

/-- `impl(std::vector<std::uint8_t>)` with what it makes visible; `granted` is
what `mlock` answers.  `lock_memory` does not ask it about an empty vector. -/
def construct (id : Nat) (data : ByteVector) (granted : Bool) : HeapImpl × List Event :=
  if data.bytes.length = 0 then (⟨data, false, ⟨data, false⟩, .live⟩, [])
  else (⟨data, granted, ⟨data, granted⟩, .live⟩, [.lockAttempt id data.range granted])

/-- `~impl` enters `clear()`, which returns at once when there is no data. -/
def startDelete (o : HeapImpl) : HeapImpl :=
  { o with stage := if o.impl.data.bytes = [] then .atRelease else .atUnlock }

/-- The next statement of the destructor, with what it makes visible. -/
def advance (id : Nat) (o : HeapImpl) : Option (HeapImpl × List Event) :=
  match o.stage with
  | .live => none
  | .atUnlock =>
      if o.impl.locked then
        some ({ o with impl := { o.impl with locked := false }, stage := .atCleanse },
          [.unlock id o.impl.data.range])
      else some ({ o with stage := .atCleanse }, [])
  -- `OPENSSL_cleanse` overwrites the bytes and leaves the vector its size
  | .atCleanse =>
      some ({ o with
        impl := { o.impl with
          data := { o.impl.data with bytes := List.replicate o.impl.data.bytes.length 0 } },
        stage := .atClear }, [.cleanse id o.impl.data.range])
  | .atClear =>
      some ({ o with
        impl := { o.impl with data := { o.impl.data with bytes := [] } },
        stage := .atRelease }, [])
  | .atRelease => some ({ o with stage := .released }, [.release id])
  | .released => none

end HeapImpl

/-! ## Buffers -/

/-- `secret_buffer::empty()`. -/
def empty : Option Impl → Bool
  | none => true
  | some impl => impl.data.bytes.isEmpty

/-- `secret_buffer::size()`. -/
def size : Option Impl → Nat
  | none => 0
  | some impl => impl.data.bytes.length

/-- `secret_buffer::view()`. -/
def view : Option Impl → List UInt8
  | none => []
  | some impl => if impl.data.bytes.isEmpty then [] else impl.data.bytes

/-- The buffers with the `unique_ptr` each is, the `impl` objects in the order
of construction, the locked pages, and what was seen so far. -/
structure State (κ : Type) where
  buffers : Ledger κ Nat
  heap : List HeapImpl
  pages : Nat → Bool
  trace : List Event

namespace State

variable {κ : Type}

def initial : State κ := ⟨.empty, [], fun _ => false, []⟩

/-- What the buffer `k` points to. -/
def implOf (s : State κ) (k : κ) : Option Impl := do
  let id ← Ledger.held s.buffers.cells k
  let o ← s.heap[id]?
  return o.impl

/-- What was seen of the vector of one `impl`, in order. -/
def seen (s : State κ) (id : Nat) : List Event := s.trace.filter fun event => event.id = id

/-- The calls take effect on the pages. -/
def see (pageSize : Nat) (events : List Event) (s : State κ) : State κ :=
  { s with pages := events.foldl (Event.apply pageSize) s.pages, trace := s.trace ++ events }

/-- The deleter of a `unique_ptr` that let go of a pointer. -/
def delete (dead : Option Nat) (s : State κ) : State κ :=
  match dead with
  | none => s
  | some id => { s with heap := s.heap.modify id HeapImpl.startDelete }

variable [DecidableEq κ]

/-- `secret_buffer()`. -/
def defaultConstruct (k : κ) (s : State κ) : State κ :=
  { s with buffers := s.buffers.createEmpty k }

/-- `secret_buffer(std::vector<std::uint8_t>&&)`. -/
def construct (pageSize : Nat) (k : κ) (data : ByteVector) (granted : Bool) (s : State κ) :
    State κ :=
  let made := HeapImpl.construct s.heap.length data granted
  see pageSize made.2 { s with
    buffers := s.buffers.create k s.heap.length,
    heap := s.heap ++ [made.1] }

/-- `secret_buffer(secret_buffer&&)`. -/
def moveConstruct (target source : κ) (s : State κ) : State κ :=
  { s with buffers := s.buffers.moveConstruct target source }

/-- `operator=(secret_buffer&&)`: the pointer is stored first, and then what the
target held before is deleted. -/
def moveAssign (target source : κ) (s : State κ) : State κ :=
  delete (Ledger.held (Function.update s.buffers.cells source (some none)) target)
    { s with buffers := s.buffers.moveAssign target source }

/-- `~secret_buffer()`. -/
def destroy (k : κ) (s : State κ) : State κ :=
  delete (Ledger.held s.buffers.cells k) { s with buffers := s.buffers.destroy k }

/-- The next statement of the destructor of an `impl` that is being deleted. -/
def advance (pageSize id : Nat) (s : State κ) : Option (State κ) := do
  let o ← s.heap[id]?
  let next ← o.advance id
  return see pageSize next.2 { s with heap := s.heap.set id next.1 }

end State

/-- What can happen next; `granted` is the outcome of the lock attempt. -/
inductive Action (κ : Type) where
  | defaultConstruct (k : κ)
  | construct (k : κ) (data : ByteVector) (granted : Bool)
  | moveConstruct (target source : κ)
  | moveAssign (target source : κ)
  | destroy (k : κ)
  | advance (id : Nat)

section Runs

variable {κ : Type} [DecidableEq κ]

/-- One step, where the language allows it. -/
def step (pageSize : Nat) (s : State κ) : Action κ → Option (State κ)
  | .defaultConstruct k =>
      if (s.buffers.cells k).isNone then some (s.defaultConstruct k) else none
  | .construct k data granted =>
      if (s.buffers.cells k).isNone then some (s.construct pageSize k data granted) else none
  | .moveConstruct target source =>
      if (s.buffers.cells target).isNone && (s.buffers.cells source).isSome then
        some (s.moveConstruct target source)
      else none
  | .moveAssign target source =>
      if (s.buffers.cells target).isSome && (s.buffers.cells source).isSome then
        some (s.moveAssign target source)
      else none
  | .destroy k => if (s.buffers.cells k).isSome then some (s.destroy k) else none
  | .advance id => s.advance pageSize id

/-- Some steps after another. -/
def run (pageSize : Nat) (s : State κ) (actions : List (Action κ)) : Option (State κ) :=
  actions.foldlM (step pageSize) s

end Runs

end Tpmkit.SecretBuffer
