import Pgfe.Data.Basic

/-!
What a caller can observe of a `Data`, and what the factories, `Data_view(const Data&)` and
`to_data` keep of it. Every way of building a `Data` from bytes, and every copy or view of a
well-formed `Data`, observes the same format, size and bytes. The owning copies carry a
terminator at `size()`, except the copy of a `Data_view`, which allocates exactly `size()`
bytes and so has none.
-/

namespace Pgfe

/-- What a caller reads of a `Data`: `format()`, `size()`, `is_empty()` and the first
`size()` bytes at `bytes()`. -/
structure Observation where
  format : DataFormat
  size : Nat
  isEmpty : Bool
  content : List UInt8
deriving DecidableEq, Repr

def Observation.ofBytes (format : DataFormat) (bytes : List UInt8) : Observation :=
  ⟨format, bytes.length, bytes.isEmpty, bytes⟩

namespace Data

def observe (data : Data) : Observation := ⟨data.format, data.size, data.isEmpty, data.content⟩

/-- The storage each variant owns or borrows holds `size()` bytes, and a view's pointer is
not null. -/
def WellFormed : Data → Prop
  | container _ _ => True
  | memory _ size storage => (StringView.mk storage size).Readable
  | empty _ => True
  | view borrowed => borrowed.data.data ≠ .null ∧ borrowed.data.Readable

/-- Whether byte `size()` of the buffer behind `bytes()` exists and is `'\0'`. -/
def terminated (data : Data) : Bool :=
  match data.bytes with
  | .null => false
  | .addr readable => readable[data.size]? == some 0

end Data

theorem StringView.length_bytes {view : StringView} (readable : view.Readable) :
    view.bytes.length = view.size := by
  unfold StringView.Readable at readable
  unfold StringView.bytes
  split at readable <;> simp_all

theorem StringView.bytes_of_size_eq_zero {view : StringView} (empty : view.size = 0) :
    view.bytes = [] := by
  unfold StringView.bytes
  split <;> simp [empty]

theorem StringView.data_ne_null {view : StringView} (readable : view.Readable)
    (present : 0 < view.size) : view.data ≠ .null := by
  intro null
  simp [StringView.Readable, null] at readable
  omega

theorem Data.WellFormed.nonNull {data : Data} (wellFormed : data.WellFormed) :
    data.bytes ≠ .null := by
  cases data with
  | memory format size storage => simp only [Data.bytes]; split <;> simp_all
  | view borrowed => exact wellFormed.1
  | _ => simp

theorem Data.WellFormed.readable {data : Data} (wellFormed : data.WellFormed) :
    (StringView.mk data.bytes data.size).Readable := by
  cases data with
  | container format storage => simp [StringView.Readable]
  | memory format size storage =>
      cases storage with
      | null => simp_all [WellFormed, StringView.Readable]
      | addr readable => exact wellFormed
  | empty format => simp [StringView.Readable]
  | view borrowed => exact wellFormed.2

theorem DataView.ofBytes_of_ne_null {bytes : Ptr} (present : bytes ≠ .null) (size : Nat)
    (format : DataFormat) : DataView.ofBytes bytes size format = ⟨format, ⟨bytes, size⟩⟩ :=
  if_neg present

theorem length_beq_zero (bytes : List UInt8) : (bytes.length == 0) = bytes.isEmpty := by
  cases bytes <;> rfl

theorem Data.isEmpty_eq (data : Data) : data.isEmpty = (data.size == 0) := by
  cases data with
  | container format storage => simp [length_beq_zero]
  | _ => simp

namespace Data

@[simp] theorem observe_container (format : DataFormat) (storage : List UInt8) :
    (container format storage).observe = .ofBytes format storage := by
  simp [observe, content, Observation.ofBytes]

@[simp] theorem observe_memory (format : DataFormat) (size : Nat) (readable : List UInt8) :
    (memory format size (.addr readable)).observe =
      ⟨format, size, size == 0, readable.take size⟩ := rfl

@[simp] theorem observe_empty (format : DataFormat) :
    (empty format).observe = .ofBytes format [] := rfl

@[simp] theorem observe_view (borrowed : DataView) :
    (view borrowed).observe =
      ⟨borrowed.format, borrowed.size, borrowed.size == 0, borrowed.data.bytes⟩ := rfl

theorem observe_make {bytes : StringView} (readable : bytes.Readable) (format : DataFormat) :
    (make bytes format).observe = .ofBytes format bytes.bytes := by
  have size := StringView.length_bytes readable
  rw [make]
  split
  · rw [observe_memory, List.take_left' size, ← size, length_beq_zero]
    rfl
  · rw [StringView.bytes_of_size_eq_zero (by omega), observe_empty]

theorem observe_makeString (storage : List UInt8) (format : DataFormat) :
    (makeString storage format).observe = .ofBytes format storage :=
  observe_container format storage

theorem observe_makeNoCopy {bytes : StringView} (readable : bytes.Readable) (format : DataFormat) :
    (makeNoCopy bytes format).observe = .ofBytes format bytes.bytes := by
  have size := StringView.length_bytes readable
  rw [makeNoCopy]
  split
  · rename_i present
    rw [DataView.ofBytes_of_ne_null (StringView.data_ne_null readable (by omega)), observe_view,
      Observation.ofBytes, DataView.size, ← size, length_beq_zero, size]
  · rw [StringView.bytes_of_size_eq_zero (by omega), observe_empty]

theorem wellFormed_make {bytes : StringView} (readable : bytes.Readable) (format : DataFormat) :
    (make bytes format).WellFormed := by
  have size := StringView.length_bytes readable
  rw [make]
  split
  · simp [WellFormed, StringView.Readable, size]
  · trivial

theorem observe_ofData {data : Data} (wellFormed : data.WellFormed) :
    (view (DataView.ofData data)).observe = data.observe := by
  rw [DataView.ofData, DataView.ofBytes_of_ne_null wellFormed.nonNull, observe_view, observe,
    isEmpty_eq]
  rfl

theorem observe_toData_memory {format : DataFormat} {size : Nat} {storage : Ptr}
    (readable : (StringView.mk storage size).Readable) :
    (memory format size storage).toData.observe = (memory format size storage).observe ∧
      (memory format size storage).toData.WellFormed := by
  refine ⟨?_, wellFormed_make readable format⟩
  cases storage with
  | addr bytes =>
      have size := StringView.length_bytes readable
      rw [toData, observe_make readable, observe_memory, Observation.ofBytes, size,
        ← length_beq_zero, size]
      rfl
  | null =>
      simp only [StringView.Readable] at readable
      subst readable
      rfl

theorem observe_toData {data : Data} (wellFormed : data.WellFormed) :
    data.toData.observe = data.observe ∧ data.toData.WellFormed := by
  cases data with
  | container format storage => exact ⟨rfl, wellFormed⟩
  | memory format size storage => exact observe_toData_memory wellFormed
  | empty format => exact ⟨rfl, wellFormed⟩
  | view borrowed =>
      have size := StringView.length_bytes wellFormed.2
      refine ⟨?_, by simp [WellFormed, StringView.Readable, size]⟩
      rw [toData, observe_memory, observe_view, List.take_of_length_le (by simp_all)]

theorem isView_toData (data : Data) : data.toData.isView = false := by
  cases data with
  | memory format size storage =>
      rw [toData, make]
      split <;> rfl
  | _ => rfl

/-- Every way of building a `Data` from a byte payload observes that payload. A view and an
owning copy of a well-formed `Data` observe it, the copy is never a view, and a copy of the
copy observes the original again. -/
theorem observe_make_and_copies (bytes : StringView) (readable : bytes.Readable)
    (format : DataFormat) (data : Data) (wellFormed : data.WellFormed) :
    (makeString bytes.bytes format).observe = .ofBytes format bytes.bytes ∧
      (make bytes format).observe = .ofBytes format bytes.bytes ∧
      (makeNoCopy bytes format).observe = .ofBytes format bytes.bytes ∧
      (view (DataView.ofData data)).observe = data.observe ∧
      data.toData.observe = data.observe ∧ data.toData.isView = false ∧
      data.toData.toData.observe = data.observe := by
  obtain ⟨copied, copyWellFormed⟩ := observe_toData wellFormed
  exact ⟨observe_makeString _ format, observe_make readable format,
    observe_makeNoCopy readable format, observe_ofData wellFormed, copied, isView_toData data,
    (observe_toData copyWellFormed).1.trans copied⟩

theorem observe_make_and_copies_memory :
    (StringView.mk (.addr [97, 98]) 2).Readable ∧ (memory .text 2 (.addr [97, 98, 0])).WellFormed ∧
      (makeString [97, 98] .text).observe = .ofBytes .text [97, 98] ∧
      (make ⟨.addr [97, 98], 2⟩ .text).observe = .ofBytes .text [97, 98] ∧
      (makeNoCopy ⟨.addr [97, 98], 2⟩ .text).observe = .ofBytes .text [97, 98] ∧
      (view (DataView.ofData (memory .text 2 (.addr [97, 98, 0])))).observe =
        (memory .text 2 (.addr [97, 98, 0])).observe ∧
      (memory .text 2 (.addr [97, 98, 0])).toData.observe =
        (memory .text 2 (.addr [97, 98, 0])).observe ∧
      (memory .text 2 (.addr [97, 98, 0])).toData.isView = false ∧
      (memory .text 2 (.addr [97, 98, 0])).toData.toData.observe =
        (memory .text 2 (.addr [97, 98, 0])).observe := by
  have readable : (StringView.mk (.addr [97, 98]) 2).Readable := by decide
  have wellFormed : (memory .text 2 (.addr [97, 98, 0])).WellFormed :=
    (by decide : (StringView.mk (.addr [97, 98, 0]) 2).Readable)
  exact ⟨readable, wellFormed, observe_make_and_copies _ readable .text _ wellFormed⟩

/-! Terminators of the owning copies -/

theorem terminated_makeString (storage : List UInt8) (format : DataFormat) :
    (makeString storage format).terminated = true := by
  simp [terminated, makeString]

theorem terminated_make {bytes : StringView} (readable : bytes.Readable) (format : DataFormat) :
    (make bytes format).terminated = true := by
  have size := StringView.length_bytes readable
  rw [make]
  split
  · simp [terminated, List.getElem?_append_right, size]
  · simp [terminated]

theorem terminated_toData {data : Data} (wellFormed : data.WellFormed)
    (owning : data.isView = false) : data.toData.terminated = true := by
  cases data with
  | container format storage => exact terminated_makeString storage format
  | memory format size storage => exact terminated_make wellFormed format
  | empty format => rfl
  | view borrowed => cases owning

/-- The copy of a readable `Data_view` is `new char[size()]`, with no byte at `size()` and so
no terminator there. -/
theorem terminated_toData_view {borrowed : DataView} (readable : borrowed.data.Readable) :
    (view borrowed).toData.terminated = false := by
  have past := List.getElem?_eq_none (Nat.le_of_eq (StringView.length_bytes readable))
  simp [terminated, past]

theorem toData_view_unterminated_ab :
    (StringView.mk (.addr [97, 98]) 2).Readable ∧
      (view ⟨.text, ⟨.addr [97, 98], 2⟩⟩).toData = memory .text 2 (.addr [97, 98]) ∧
      (view ⟨.text, ⟨.addr [97, 98], 2⟩⟩).toData.terminated = false :=
  ⟨by decide, rfl, terminated_toData_view (by decide)⟩

end Data

end Pgfe
