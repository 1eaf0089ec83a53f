import Pgfe.Data.Copy

/-!
Model of `Data::to_bytea` from `pgfe/data.cpp`. `PQunescapeBytea` belongs to libpq and is a
parameter: it reads the C string at `bytes()`, that is up to the first `'\0'`, and returns
the unescaped bytes or nothing when it cannot allocate them. The assertion of `to_bytea`
asks for a text `Data` with a terminator at `size()`; every owning copy of a text payload
meets it, and `to_bytea` then unescapes the payload up to its first `'\0'`, whatever
`size()` says.
-/

namespace Pgfe

def cString (readable : List UInt8) : List UInt8 := readable.takeWhile (· ≠ 0)

/-- Models `to_bytea__(text)`: `Data::make` adopts the unescaped bytes as a binary
`custom_memory_Data`, and a null result of `PQunescapeBytea` throws `std::bad_alloc`, here
`none`. -/
def toByteaOf (unescape : List UInt8 → Option (List UInt8)) (text : List UInt8) :
    Option Data :=
  (unescape (cString text)).map fun storage => Data.makeUniquePtr storage storage.length .binary

namespace Data

/-- Models `Data::to_bytea(text_data)`; `none` where `assert(text_data)` fails. -/
def toByteaText (unescape : List UInt8 → Option (List UInt8)) : Ptr → Option Data
  | .null => none
  | .addr readable => toByteaOf unescape readable

/-- Models `Data::to_bytea()`; `none` where its assertion fails, a read of
`bytes()[size()]` past the buffer included. -/
def toBytea (unescape : List UInt8 → Option (List UInt8)) (data : Data) : Option Data :=
  if data.format = .text ∧ data.terminated = true then toByteaText unescape data.bytes
  else none

end Data

theorem cString_take {readable : List UInt8} {size : Nat} (found : readable[size]? = some 0) :
    cString (readable.take size) = cString readable := by
  induction readable generalizing size with
  | nil => simp at found
  | cons byte rest ih =>
      cases size with
      | zero =>
          simp only [List.getElem?_cons_zero, Option.some.injEq] at found
          simp [cString, List.takeWhile_cons, found]
      | succ size =>
          simp only [cString, List.take_succ_cons, List.takeWhile_cons] at ih ⊢
          rw [ih (by simpa using found)]

theorem Data.toBytea_of_terminated (unescape : List UInt8 → Option (List UInt8)) {data : Data}
    (text : data.format = .text) (ends : data.terminated = true) :
    data.toBytea unescape = toByteaOf unescape data.content := by
  rw [toBytea, if_pos ⟨text, ends⟩]
  unfold Data.terminated at ends
  split at ends
  · cases ends
  · rename_i readable atBytes
    rw [atBytes, toByteaText, toByteaOf, toByteaOf, content, atBytes, StringView.bytes_addr,
      cString_take (by simpa using ends)]

namespace Data

theorem content_eq_of_observe {data : Data} {format : DataFormat} {bytes : List UInt8}
    (observed : data.observe = .ofBytes format bytes) :
    data.format = format ∧ data.content = bytes :=
  ⟨congrArg Observation.format observed, congrArg Observation.content observed⟩

theorem isView_make (bytes : StringView) (format : DataFormat) :
    (make bytes format).isView = false := by
  rw [make]
  split <;> rfl

theorem toBytea_owning {data : Data} {bytes : List UInt8}
    (unescape : List UInt8 → Option (List UInt8)) (wellFormed : data.WellFormed)
    (owning : data.isView = false) (observed : data.observe = .ofBytes .text bytes) (ends : data.terminated = true) :
    data.toBytea unescape = toByteaOf unescape bytes ∧
      data.toData.toBytea unescape = toByteaOf unescape bytes := by
  obtain ⟨copied, -⟩ := observe_toData wellFormed
  obtain ⟨text, content⟩ := content_eq_of_observe observed
  obtain ⟨copyText, copyContent⟩ := content_eq_of_observe (copied.trans observed)
  refine ⟨?_, ?_⟩
  · rw [toBytea_of_terminated unescape text ends, content]
  · rw [toBytea_of_terminated unescape copyText (terminated_toData wellFormed owning),
      copyContent]

/-- The assertion of `to_bytea` holds on every owning copy of a text payload `s`:
`Data::make(std::string(s), text)`, `Data::make(s, text)` and their `to_data()` copies. On
each, `to_bytea` unescapes `s` up to its first `'\0'`, whatever its `size()`. -/
theorem toBytea_make (unescape : List UInt8 → Option (List UInt8)) {bytes : StringView}
    (readable : bytes.Readable) :
    (makeString bytes.bytes .text).toBytea unescape = toByteaOf unescape bytes.bytes ∧
      (makeString bytes.bytes .text).toData.toBytea unescape = toByteaOf unescape bytes.bytes ∧
      (make bytes .text).toBytea unescape = toByteaOf unescape bytes.bytes ∧
      (make bytes .text).toData.toBytea unescape = toByteaOf unescape bytes.bytes := by
  have string := toBytea_owning unescape
    (show (makeString bytes.bytes .text).WellFormed from trivial) rfl
    (observe_makeString _ .text) (terminated_makeString _ .text)
  have copied := toBytea_owning unescape (wellFormed_make readable .text)
    (isView_make bytes .text) (observe_make readable .text) (terminated_make readable .text)
  exact ⟨string.1, string.2, copied.1, copied.2⟩

theorem toBytea_make_ab :
    (StringView.mk (.addr [97, 98]) 2).Readable ∧
      let bytes : StringView := ⟨.addr [97, 98], 2⟩
      (makeString bytes.bytes .text).toBytea some = toByteaOf some bytes.bytes ∧
        (makeString bytes.bytes .text).toData.toBytea some = toByteaOf some bytes.bytes ∧
        (make bytes .text).toBytea some = toByteaOf some bytes.bytes ∧
        (make bytes .text).toData.toBytea some = toByteaOf some bytes.bytes := by
  have readable : (StringView.mk (.addr [97, 98]) 2).Readable := by decide
  exact ⟨readable, toBytea_make some readable⟩

end Data

end Pgfe
