/-
  Types.lean --- the vocabulary every module shares.

  Source: `include/buffer_manager/types.h`, `include/buffer_manager/page.h` and
  the exception classes the sources throw.

  `PageId` is `std::uint64_t` and `FrameId` is `std::uint32_t`; both are `Nat`
  here, written `p`, `pageId` and `f`, `frameId`.  Where a computed value is
  narrowed to one of them the definition writes the reduction (`% 2 ^ 32`), and
  the constructors' range checks are modelled, so the widths enter exactly where
  the source relies on them.
-/
import Mathlib.Algebra.Group.Nat.Defs
import Mathlib.Logic.Function.Basic

set_option autoImplicit false

namespace BufferManager

/-- `kPageSize = 1ULL << 12`. -/
def kPageSize : Nat := 2 ^ 12

/-- `struct Page`: `kPageSize` bytes. -/
@[ext] structure Page where
  data : Fin kPageSize → UInt8

namespace Page

/-- `page.data.fill(std::byte{0})`. -/
def zero : Page := ⟨fun _ => 0⟩

/-- The first `k` bytes of `new` over the bytes of `old`: what a transfer that
stops after `k` bytes leaves behind. -/
def overwrite (k : Nat) (new old : Page) : Page :=
  ⟨fun j => if j.val < k then new.data j else old.data j⟩

@[simp] theorem zero_data (j : Fin kPageSize) : zero.data j = 0 := rfl

theorem overwrite_data (k : Nat) (new old : Page) (j : Fin kPageSize) :
    (overwrite k new old).data j = if j.val < k then new.data j else old.data j := rfl

end Page

/-- The exception classes of `<stdexcept>` that the sources, and the containers they use,
throw. -/
inductive ErrorKind where
  | logicError
  | lengthError
  | runtimeError
  | overflowError
  | outOfRange
  | invalidArgument
  deriving DecidableEq, Repr

/-- A thrown exception: its class and its `what()` text. -/
structure Error where
  kind : ErrorKind
  what : String
  deriving DecidableEq, Repr

end BufferManager
