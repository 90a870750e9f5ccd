import Mathlib.Data.Nat.Init
import AbcDemo.Foundation.Codec

/-! # Codecs that read their value off the front of the input

Values written one after another are read back one after another. Fixed-width
integers are little-endian, a pair is its components in order, and a list is
its length followed by its entries. A length below 63 is the single byte of the
compact format; the byte that this leaves over says that 63 more are to come,
which the compact format does not. The programs are read over any lawful codec:
this one is for runs on fixed inputs, whose lists are short.
-/

namespace AbcDemo.Foundation

class PrefixCodec (α : Type) where
  encode : α → Bytes
  read : Bytes → Option (α × Bytes)
  read_encode : ∀ a rest, read (encode a ++ rest) = some (a, rest)

attribute [simp] PrefixCodec.read_encode

namespace PrefixCodec

variable {α β : Type}

/-- What follows the value is not looked at. -/
@[reducible] def codec [PrefixCodec α] : Codec α where
  encode := encode
  decode bytes := (read bytes).map Prod.fst
  decode_encode a := by
    have h := read_encode a []
    rw [List.append_nil] at h
    rw [h]
    rfl

/-- A codec for whatever has the same values. -/
@[reducible] def transport [PrefixCodec α] (make : α → β) (view : β → α)
    (make_view : ∀ b, make (view b) = b) : PrefixCodec β where
  encode b := encode (view b)
  read bytes := (read bytes).map fun out => (make out.1, out.2)
  read_encode b rest := by simp [make_view]

instance : PrefixCodec Bool where
  encode := Codec.encode
  read
    | 0 :: rest => some (false, rest)
    | 1 :: rest => some (true, rest)
    | _ => none
  read_encode b rest := by cases b <;> rfl

instance : PrefixCodec UInt8 where
  encode b := [b]
  read
    | b :: rest => some (b, rest)
    | [] => none
  read_encode _ _ := rfl

instance : PrefixCodec UInt32 where
  encode n :=
    [.ofNat n.toNat, .ofNat (n.toNat / 256), .ofNat (n.toNat / 65536), .ofNat (n.toNat / 16777216)]
  read
    | a :: b :: c :: d :: rest =>
        some (.ofNat (a.toNat + 256 * b.toNat + 65536 * c.toNat + 16777216 * d.toNat), rest)
    | _ => none
  read_encode n rest := by
    have hn : n.toNat < 4294967296 := n.toNat_lt
    have digits : n.toNat % 256 + 256 * (n.toNat / 256 % 256) +
        65536 * (n.toNat / 65536 % 256) + 16777216 * (n.toNat / 16777216 % 256) = n.toNat := by
      omega
    simp [digits]

instance [PrefixCodec α] [PrefixCodec β] : PrefixCodec (α × β) where
  encode p := encode p.1 ++ encode p.2
  read bytes := (read bytes).bind fun first =>
    (read first.2).map fun second => ((first.1, second.1), second.2)
  read_encode p rest := by simp

/-! ## Lists -/

def encodeLength (n : Nat) : Bytes := List.replicate (n / 63) 255 ++ [(4 * (n % 63)).toUInt8]

def readLength : Bytes → Option (Nat × Bytes)
  | [] => none
  | b :: rest =>
      if b = 255 then (readLength rest).map fun out => (out.1 + 63, out.2)
      else some (b.toNat / 4, rest)

theorem readLength_encodeLength (n : Nat) (rest : Bytes) :
    readLength (encodeLength n ++ rest) = some (n, rest) := by
  have last : readLength ((4 * (n % 63)).toUInt8 :: rest) = some (n % 63, rest) := by
    have value : (4 * (n % 63)).toUInt8.toNat = 4 * (n % 63) := by
      simp
      omega
    have other : (4 * (n % 63)).toUInt8 ≠ 255 := by
      intro h
      have h := congrArg UInt8.toNat h
      rw [value] at h
      simp at h
      omega
    rw [readLength, if_neg other, value, Nat.mul_div_cancel_left _ (by omega)]
  have markers : ∀ k, readLength (List.replicate k 255 ++ (4 * (n % 63)).toUInt8 :: rest) =
      some (n % 63 + 63 * k, rest) := by
    intro k
    induction k with
    | zero => simpa using last
    | succ k ih =>
        rw [List.replicate_succ, List.cons_append, readLength, if_pos rfl, ih, Option.map_some,
          Nat.mul_succ, Nat.add_assoc]
  rw [encodeLength, List.append_assoc, List.singleton_append, markers, Nat.mod_add_div]

def readEntries [PrefixCodec α] : Nat → Bytes → Option (List α × Bytes)
  | 0, bytes => some ([], bytes)
  | n + 1, bytes => (read bytes).bind fun first =>
      (readEntries n first.2).map fun others => (first.1 :: others.1, others.2)

theorem readEntries_flatMap [PrefixCodec α] (xs : List α) (rest : Bytes) :
    readEntries xs.length (xs.flatMap encode ++ rest) = some (xs, rest) := by
  induction xs with
  | nil => rfl
  | cons x xs ih => simp [readEntries, ih]

instance [PrefixCodec α] : PrefixCodec (List α) where
  encode xs := encodeLength xs.length ++ xs.flatMap encode
  read bytes := (readLength bytes).bind fun length => readEntries length.1 length.2
  read_encode xs rest := by
    rw [List.append_assoc, readLength_encodeLength, Option.bind_some, readEntries_flatMap]

/-- The list of the UTF-8 bytes. -/
instance : PrefixCodec String where
  encode text := encode (asBytes text)
  read bytes := (read bytes).bind fun out : Bytes × Bytes =>
    (String.fromUTF8? ⟨out.1.toArray⟩).map fun text => (text, out.2)
  read_encode text rest := by
    have valid : text.toByteArray.IsValidUTF8 := text.isValidUTF8
    simp [asBytes, String.fromUTF8?, String.fromUTF8, valid]

end PrefixCodec

end AbcDemo.Foundation
