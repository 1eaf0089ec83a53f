import Mathlib.Data.List.Basic

/-!
Model of the `Data` hierarchy of `pgfe/data.cpp`: the four variants and their accessors,
`is_invariant_ok`, the factories `Data::make` and `Data::make_no_copy`, `to_data`, and the
constructors and move operations of `Data_view`. A pointer is modelled by the bytes that can
be read through it up to the end of its allocation, so that a copy, its size and its
terminator can be read off. The members and accessors of `Data_view` are declared in
`data.hpp`, which is not among the sources; they are modelled from the spec.
-/

namespace Pgfe

/-- Models `Data_format`, an `enum class` over `int`. A text payload is format 0 and a binary
one format 1, as in libpq; `Format{-1}` marks an invalid `Data_view`. -/
structure DataFormat where
  toInt : Int
deriving DecidableEq, Repr

def DataFormat.text : DataFormat := ⟨0⟩

def DataFormat.binary : DataFormat := ⟨1⟩

/-- Models `Format{-1}`. -/
def DataFormat.invalid : DataFormat := ⟨-1⟩

/-- Models a `const char*` by what can be read through it: nothing for a null pointer,
otherwise the bytes from the pointer to the end of its allocation. -/
inductive Ptr
  | null
  | addr (readable : List UInt8)
deriving DecidableEq, Repr

/-- Models the literal `""`: one readable terminator. -/
@[simp] def emptyLiteral : Ptr := .addr [0]

/-- Models `std::string_view`: a pointer and a size. -/
structure StringView where
  data : Ptr
  size : Nat
deriving DecidableEq, Repr

/-- The bytes `[data, data + size)`, what `memcpy` copies from the view. -/
def StringView.bytes (view : StringView) : List UInt8 :=
  match view.data with
  | .null => []
  | .addr readable => readable.take view.size

@[simp] theorem StringView.bytes_null (size : Nat) : (StringView.mk .null size).bytes = [] := rfl

@[simp] theorem StringView.bytes_addr (readable : List UInt8) (size : Nat) :
    (StringView.mk (.addr readable) size).bytes = readable.take size := rfl

/-- A view whose `size` bytes can be read; a null view is empty. Callers of every function
taking a `std::string_view` promise it. -/
def StringView.Readable (view : StringView) : Prop :=
  match view.data with
  | .null => view.size = 0
  | .addr readable => view.size ≤ readable.length

instance StringView.decidableReadable (view : StringView) : Decidable view.Readable :=
  match view with
  | ⟨.null, size⟩ => Nat.decEq size 0
  | ⟨.addr readable, size⟩ => Nat.decLe size readable.length

/-- Models the members `format_` and `data_` of `Data_view`. -/
structure DataView where
  format : DataFormat
  data : StringView
deriving DecidableEq, Repr

/-- Modelled from the spec: the default member initialisers of `Data_view` (in `data.hpp`)
give an invalid view, with the invalid format and zero length, whose `bytes()` points at a
valid terminator. -/
def DataView.default : DataView := ⟨.invalid, ⟨emptyLiteral, 0⟩⟩

/-- Modelled from the spec: `Data_view::size()` (in `data.hpp`) is the size of `data_`. -/
@[simp] def DataView.size (view : DataView) : Nat := view.data.size

/-- Modelled from the spec: `Data_view::is_empty()` (in `data.hpp`) is `size() == 0`. -/
@[simp] def DataView.isEmpty (view : DataView) : Bool := view.data.size == 0

/-- Modelled from the spec: `Data_view::bytes()` (in `data.hpp`) is `data_.data()`. -/
@[simp] def DataView.bytes (view : DataView) : Ptr := view.data.data

/-- Models the variants of `Data`: `container_Data<std::string>` (`string_Data`),
`memory_Data` (array or custom deleter: the deleter is not observable here), `empty_Data`
and `Data_view`. -/
inductive Data
  | container (format : DataFormat) (storage : List UInt8)
  | memory (format : DataFormat) (size : Nat) (storage : Ptr)
  | empty (format : DataFormat)
  | view (view : DataView)
deriving DecidableEq, Repr

namespace Data

def format : Data → DataFormat
  | container format _ => format
  | memory format _ _ => format
  | empty format => format
  | view borrowed => borrowed.format

def size : Data → Nat
  | container _ storage => storage.length
  | memory _ size _ => size
  | empty _ => 0
  | view borrowed => borrowed.size

def isEmpty : Data → Bool
  | container _ storage => storage.isEmpty
  | memory _ size _ => size == 0
  | empty _ => true
  | view borrowed => borrowed.isEmpty

/-- Models `bytes()`. The buffer of a `std::string` holds a terminator at `size()`, and
`memory_Data` falls back to `""` for a null storage. -/
def bytes : Data → Ptr
  | container _ storage => .addr (storage ++ [0])
  | memory _ _ storage => if storage = .null then emptyLiteral else storage
  | empty _ => emptyLiteral
  | view borrowed => borrowed.bytes

def isView : Data → Bool
  | container _ _ => false
  | memory _ _ _ => false
  | empty _ => false
  | view _ => true

attribute [simp] format.eq_1 format.eq_2 format.eq_3 format.eq_4 size.eq_1 size.eq_2 size.eq_3
  size.eq_4 isEmpty.eq_1 isEmpty.eq_2 isEmpty.eq_3 isEmpty.eq_4 bytes.eq_1 bytes.eq_2 bytes.eq_3
  bytes.eq_4 isView.eq_1 isView.eq_2 isView.eq_3 isView.eq_4

/-- Models `Data::is_invariant_ok`. -/
def isInvariantOk (data : Data) : Bool :=
  let sizeOk := (data.size == 0) == data.isEmpty
  let emptyOk := !data.isEmpty || (data.size == 0 && data.bytes != .null)
  sizeOk && emptyOk

/-- Models `Data::make(std::string&& storage, format)`. -/
def makeString (storage : List UInt8) (format : DataFormat) : Data :=
  container format storage

/-- Models `Data::make(std::unique_ptr<void, void(*)(void*)>&& storage, size, format)`; the
adopted buffer is not null, as the function asserts. -/
def makeUniquePtr (storage : List UInt8) (size : Nat) (format : DataFormat) : Data :=
  memory format size (.addr storage)

/-- Models `Data::make(std::string_view bytes, format)`: the bytes are copied into
`new char[bytes.size() + 1]` with a terminator, and no bytes give an `empty_Data`. -/
def make (bytes : StringView) (format : DataFormat) : Data :=
  if bytes.size > 0 then memory format bytes.size (.addr (bytes.bytes ++ [0]))
  else empty format

end Data

/-- Models `Data_view(const char* bytes, std::size_t size, Format format)`. -/
def DataView.ofBytes (bytes : Ptr) (size : Nat) (format : DataFormat) : DataView :=
  if bytes = .null then .default else ⟨format, ⟨bytes, size⟩⟩

/-- Models `std::char_traits<char>::length`, the length of a C string. Where the readable bytes
hold no `'\0'` it stops at their end, while the source reads past them; callers of
`Data_view(const char*)` are held to bytes with a `'\0'`. -/
def cStringLength (readable : List UInt8) : Nat := (readable.takeWhile (· ≠ 0)).length

/-- Models `Data_view(const char* bytes)`. -/
def DataView.ofCString (bytes : Ptr) : DataView :=
  match bytes with
  | .null => .default
  | .addr readable => ⟨.text, ⟨.addr readable, cStringLength readable⟩⟩

/-- Models `Data_view(const Data& data)`. -/
def DataView.ofData (data : Data) : DataView :=
  .ofBytes data.bytes data.size data.format

/-- Models `Data_view(Data_view&& rhs)`: the new view and `rhs` after the move. Moving the
`std::string_view` member copies it; only `rhs.format_` is reset. -/
def DataView.moveConstruct (rhs : DataView) : DataView × DataView :=
  (⟨rhs.format, rhs.data⟩, { rhs with format := .invalid })

/-- Models `Data_view::swap`: `*this` and `rhs` afterwards. -/
def DataView.swap (self rhs : DataView) : DataView × DataView :=
  (⟨rhs.format, rhs.data⟩, ⟨self.format, self.data⟩)

/-- Models `Data_view::operator=(Data_view&& rhs)` when `this != &rhs`: a temporary is
move-constructed from `rhs` and swapped with `*this`. Returns `*this` and `rhs`. -/
def DataView.moveAssign (self rhs : DataView) : DataView × DataView :=
  let (tmp, rhs) := rhs.moveConstruct
  ((self.swap tmp).1, rhs)

namespace Data

/-- Models `to_data()` of each variant. `memory_Data` goes through `Data::make`, and
`Data_view` copies `size()` bytes into `new char[size()]`. -/
def toData : Data → Data
  | container format storage => container format storage
  | memory format size storage => make ⟨storage, size⟩ format
  | empty format => empty format
  | view borrowed => memory borrowed.format borrowed.size (.addr borrowed.data.bytes)

attribute [simp] toData.eq_1 toData.eq_2 toData.eq_3 toData.eq_4

/-- Models `Data::make_no_copy(std::string_view bytes, format)`. -/
def makeNoCopy (bytes : StringView) (format : DataFormat) : Data :=
  if bytes.size > 0 then view (.ofBytes bytes.data bytes.size format) else empty format

def content (data : Data) : List UInt8 := (StringView.mk data.bytes data.size).bytes

end Data

end Pgfe
