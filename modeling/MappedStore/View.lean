import MappedStore.Value

/-!
# Views

A read hands the engine's bytes to its caller either as a view into the map or as a copy. The
choice is fixed for the life of an environment. A buffer carries its address, so that sharing can
be stated: a view into the map keeps the address, and a copy of a nonempty buffer gets a fresh
one.
-/

namespace MappedStore

/-- How reads are handed to callers. -/
inductive ViewKind where
  | zeroCopy
  | copying
  deriving DecidableEq, Repr

namespace ViewKind

/-- The name of a kind of view. -/
def name : ViewKind → String
  | zeroCopy => "ZeroCopy"
  | copying => "Copying"

/-- Reads are views into the map unless a caller asks otherwise. -/
def default : ViewKind := zeroCopy

end ViewKind

/-- A byte string together with the address where it lies. -/
structure Buffer where
  address : Nat
  data : Bytes
  deriving DecidableEq

namespace Buffer

/-- The number of bytes. -/
def length (buffer : Buffer) : Nat := buffer.data.length

/-- Whether there are no bytes. -/
def isEmpty (buffer : Buffer) : Bool := buffer.data.isEmpty

/-- What a reader receives for a buffer; `free` is an address at which a copy can be placed. -/
def view (buffer : Buffer) (kind : ViewKind) (free : Nat) : Buffer :=
  match kind with
  | .zeroCopy => buffer
  | .copying => ⟨free, buffer.data⟩

/-- Whether two buffers lie at the same address; an empty buffer occupies no address. -/
def sharesAddress (left right : Buffer) : Option Bool :=
  if left.isEmpty then none else some (left.address == right.address)

/-- A view shows the bytes of its buffer, whichever way it is handed out. -/
theorem data_view (buffer : Buffer) (kind : ViewKind) (free : Nat) :
    (buffer.view kind free).data = buffer.data := by
  cases kind <;> rfl

end Buffer

end MappedStore
