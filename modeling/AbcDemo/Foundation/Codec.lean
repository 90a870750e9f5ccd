import Mathlib.Init

/-! # Byte strings and their codecs -/

namespace AbcDemo.Foundation

abbrev Bytes : Type := List UInt8

def asBytes (text : String) : Bytes := text.toUTF8.data.toList

theorem asBytes_append (text text' : String) :
    asBytes (text ++ text') = asBytes text ++ asBytes text' := by
  simp [asBytes, ByteArray.data_append]

theorem asBytes_injective {text text' : String} (h : asBytes text = asBytes text') :
    text = text' := by
  have same : text.toByteArray = text'.toByteArray := ByteArray.ext (Array.toList_inj.mp h)
  exact String.toByteArray_inj.mp same

theorem asBytes_append_cancel {start text text' : String}
    (h : asBytes (start ++ text) = asBytes (start ++ text')) : text = text' := by
  rw [asBytes_append, asBytes_append] at h
  exact asBytes_injective (List.append_cancel_left h)

theorem asBytes_eq_flatMap (text : String) :
    asBytes text = text.toList.flatMap String.utf8EncodeChar := by
  rw [asBytes, String.toUTF8_eq_toByteArray, ← String.utf8Encode_toList, List.utf8Encode]
  simp

/-- A text of ASCII characters has one byte for each. -/
theorem asBytes_ascii {text : String} (ascii : ∀ c ∈ text.toList, c.utf8Size = 1) :
    asBytes text = text.toList.map fun c => c.val.toUInt8 := by
  rw [asBytes_eq_flatMap]
  generalize text.toList = cs at ascii
  induction cs with
  | nil => rfl
  | cons c cs ih =>
      rw [List.flatMap_cons, String.utf8EncodeChar_eq_singleton (ascii c (by simp)),
        ih fun c there => ascii c (by simp [there])]
      rfl

/-- The text that the bytes are the UTF-8 of, if they are. -/
def fromUtf8 (bytes : Bytes) : Option String := String.fromUTF8? ⟨bytes.toArray⟩

@[simp] theorem fromUtf8_asBytes (text : String) : fromUtf8 (asBytes text) = some text := by
  have valid : text.toByteArray.IsValidUTF8 := text.isValidUTF8
  simp [fromUtf8, asBytes, String.fromUTF8?, String.fromUTF8, valid]

theorem asBytes_of_fromUtf8 {bytes : Bytes} {text : String} (h : fromUtf8 bytes = some text) :
    asBytes text = bytes := by
  unfold fromUtf8 String.fromUTF8? at h
  split at h
  · cases h
    simp [asBytes, String.fromUTF8]
  · cases h

/-- Byte strings of one fixed length. -/
structure FixedBytes (n : Nat) where
  bytes : Bytes
  length_eq : bytes.length = n
  deriving DecidableEq

namespace FixedBytes

variable {n : Nat}

/-- The default of a fixed-size hash or account: all bytes zero. -/
instance : Inhabited (FixedBytes n) := ⟨⟨List.replicate n 0, List.length_replicate⟩⟩

def fill (byte : UInt8) : FixedBytes n := ⟨List.replicate n byte, List.length_replicate⟩

def ofBytes? (bytes : Bytes) : Option (FixedBytes n) :=
  if h : bytes.length = n then some ⟨bytes, h⟩ else none

@[simp] theorem ofBytes?_bytes (b : FixedBytes n) : ofBytes? b.bytes = some b := by
  simp [ofBytes?, b.length_eq]

end FixedBytes

/-- A codec whose decoder undoes its encoder. Decoding reads a prefix of its
input and may fail. -/
class Codec (α : Type) where
  encode : α → Bytes
  decode : Bytes → Option α
  decode_encode : ∀ a, decode (encode a) = some a

attribute [simp] Codec.decode_encode

/-- A fixed-size byte string is encoded as its bytes, without a length. -/
instance {n : Nat} : Codec (FixedBytes n) where
  encode b := b.bytes
  decode bytes := FixedBytes.ofBytes? (bytes.take n)
  decode_encode b := by
    have h : b.bytes.take n = b.bytes := List.take_of_length_le (Nat.le_of_eq b.length_eq)
    rw [h, FixedBytes.ofBytes?_bytes]

/-- One byte, and no other byte than these two. -/
instance : Codec Bool where
  encode b := if b then [1] else [0]
  decode
    | 0 :: _ => some false
    | 1 :: _ => some true
    | _ => none
  decode_encode b := by cases b <;> rfl

end AbcDemo.Foundation
