import AbcDemo.Pallet.Storage
import AbcDemo.Foundation.Blake2b

/-! # Generated errand identifiers

An errand identifier is the text of a random UUID whose bytes are the hash of
the block's random seed, the delegator and the extrinsic index.
-/

namespace AbcDemo.Pallet

open Foundation

/-- Little-endian bytes of a `u32`. -/
def encodeU32 (x : UInt32) : Bytes :=
  (List.range 4).map fun i => (x >>> (8 * i).toUInt32).toUInt8

def encodeOptionU32 : Option UInt32 → Bytes
  | none => [0]
  | some x => 1 :: encodeU32 x

/-- `set_variant(Variant::RFC4122)`. -/
def setVariant (bytes : Bytes) : Bytes := bytes.modify 8 fun b => b &&& 0x3f ||| 0x80

/-- `set_version(Version::Random)`. -/
def setVersion (bytes : Bytes) : Bytes := bytes.modify 6 fun b => b &&& 0x0f ||| 0x40

/-- The ASCII lower-case hexadecimal digit of a value below sixteen. -/
def hexDigit (x : UInt8) : UInt8 := if x < 10 then 48 + x else 87 + x

def hexEncode (bytes : Bytes) : Bytes :=
  bytes.flatMap fun (b : UInt8) => [hexDigit (b >>> 4), hexDigit (b &&& 0x0f)]

/-- The 8-4-4-4-12 form: groups of 4, 2, 2, 2 and 6 bytes between hyphens. -/
def hyphenated (bytes : Bytes) : Bytes :=
  hexEncode (bytes.take 4) ++ 45 :: hexEncode ((bytes.drop 4).take 2) ++
    45 :: hexEncode ((bytes.drop 6).take 2) ++ 45 :: hexEncode ((bytes.drop 8).take 2) ++
    45 :: hexEncode (bytes.drop 10)

variable {AccountId Ledger : Type} [Codec AccountId]

def generateErrandId (T : Trait AccountId Ledger) (env : Env) (sender : AccountId) : ErrandId :=
  let payload := env.randomSeed ++ Codec.encode sender ++ encodeOptionU32 env.extrinsicIndex
  hyphenated (setVersion (setVariant (T.blake2_128 payload).bytes))

theorem hexEncode_length (bytes : Bytes) : (hexEncode bytes).length = 2 * bytes.length := by
  induction bytes with
  | nil => rfl
  | cons b bytes ih =>
      simp only [hexEncode, List.flatMap_cons, List.length_append, List.length_cons,
        List.length_nil] at ih ⊢
      omega

theorem hyphenated_length {bytes : Bytes} (h : bytes.length = 16) :
    (hyphenated bytes).length = 36 := by
  simp [hyphenated, hexEncode_length, h]

/-- Whatever the hash returns, the identifier is a text of 36 bytes. -/
theorem generateErrandId_length (T : Trait AccountId Ledger) (env : Env) (sender : AccountId) :
    (generateErrandId T env sender).length = 36 := by
  apply hyphenated_length
  rw [setVersion, setVariant, List.length_modify, List.length_modify]
  exact FixedBytes.length_eq _

/-- The identifier the module's own test expects for its first account. -/
example (T : Trait AccountId32 Unit) (hT : T.blake2_128 = Blake2b.hash 16) :
    generateErrandId T ⟨1, List.replicate 32 0, some 0⟩
      (⟨[180, 76, 212, 157, 9, 143, 209, 216, 134, 111, 86, 44, 151, 71, 29, 251, 253, 38, 240, 16,
        72, 142, 113, 173, 170, 66, 92, 76, 85, 156, 40, 74], rfl⟩ : AccountId32) =
      "a1aa04f9-adc0-487a-ab5d-ba1ddb9b963b".toUTF8.toList := by
  rw [generateErrandId, hT]
  decide +kernel

end AbcDemo.Pallet
