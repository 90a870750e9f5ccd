import AbcDemo.Pallet.Runtime

/-! # The texts of errand identifiers

The identifiers that are generated are the texts of version 4 UUIDs, all of them
and nothing else. A text is read back by leaving out its hyphens, so it tells
everything about the hash it came from but the six bits that the version and the
variant take.
-/

namespace AbcDemo.Pallet

open Foundation

/-! ## Digits -/

theorem forall_byte {P : UInt8 → Prop} (h : ∀ n < 256, P (UInt8.ofNat n)) (b : UInt8) : P b := by
  simpa using h b.toNat b.toNat_lt

def hexDigits : Bytes := asBytes "0123456789abcdef"

def hexValue (digit : UInt8) : UInt8 := if digit < 58 then digit - 48 else digit - 87

/-- Two digits are a byte. -/
def hexDecode : Bytes → Bytes
  | high :: low :: digits => (hexValue high <<< 4 ||| hexValue low) :: hexDecode digits
  | _ => []

theorem hexDigit_pair (b : UInt8) :
    hexDigit (b >>> 4) ∈ hexDigits ∧ hexDigit (b &&& 0x0f) ∈ hexDigits ∧
      hexValue (hexDigit (b >>> 4)) <<< 4 ||| hexValue (hexDigit (b &&& 0x0f)) = b := by
  revert b
  apply forall_byte
  decide +kernel

/-- The other way round. -/
theorem hexValue_pair : ∀ high ∈ hexDigits, ∀ low ∈ hexDigits,
    hexDigit ((hexValue high <<< 4 ||| hexValue low) >>> 4) = high ∧
      hexDigit ((hexValue high <<< 4 ||| hexValue low) &&& 0x0f) = low := by
  decide +kernel

theorem hexDecode_hexEncode (bytes : Bytes) : hexDecode (hexEncode bytes) = bytes := by
  induction bytes with
  | nil => rfl
  | cons b bytes ih =>
      have pair := (hexDigit_pair b).2.2
      unfold hexEncode at ih ⊢
      rw [List.flatMap_cons]
      simp only [List.cons_append, List.nil_append, hexDecode, pair, ih]

theorem mem_hexEncode {bytes : Bytes} {digit : UInt8} (h : digit ∈ hexEncode bytes) :
    digit ∈ hexDigits := by
  obtain ⟨b, _, hb⟩ := List.mem_flatMap.mp h
  have pair := hexDigit_pair b
  simp only [List.mem_cons, List.not_mem_nil, or_false] at hb
  rcases hb with rfl | rfl
  · exact pair.1
  · exact pair.2.1

theorem hexEncode_append (bytes bytes' : Bytes) :
    hexEncode (bytes ++ bytes') = hexEncode bytes ++ hexEncode bytes' :=
  List.flatMap_append

theorem hexEncode_injective {bytes bytes' : Bytes} (h : hexEncode bytes = hexEncode bytes') :
    bytes = bytes' := by
  rw [← hexDecode_hexEncode bytes, h, hexDecode_hexEncode]

/-- An even number of digits is the encoding of some bytes. -/
theorem exists_hexEncode (n : Nat) {digits : Bytes} (length : digits.length = 2 * n)
    (hex : ∀ digit ∈ digits, digit ∈ hexDigits) :
    ∃ bytes, bytes.length = n ∧ hexEncode bytes = digits := by
  induction n generalizing digits with
  | zero => exact ⟨[], rfl, (List.eq_nil_of_length_eq_zero length).symm⟩
  | succ n ih =>
      match digits, length with
      | high :: low :: digits, length =>
          have rest : digits.length = 2 * n := by
            simp only [List.length_cons] at length
            omega
          obtain ⟨bytes, count, same⟩ := ih rest fun digit there => hex digit (by simp [there])
          have pair := hexValue_pair high (hex high (by simp)) low (hex low (by simp))
          refine ⟨(hexValue high <<< 4 ||| hexValue low) :: bytes, by simp [count], ?_⟩
          rw [← same]
          unfold hexEncode
          rw [List.flatMap_cons, pair.1, pair.2]
          rfl

/-! ## Hyphens -/

def unhyphenated (text : Bytes) : Bytes := text.filter fun c => c ≠ 45

theorem unhyphenated_hexEncode (bytes : Bytes) :
    unhyphenated (hexEncode bytes) = hexEncode bytes := by
  rw [unhyphenated, List.filter_eq_self]
  intro digit there
  have hyphen : ∀ digit ∈ hexDigits, decide (digit ≠ 45) = true := by decide +kernel
  exact hyphen digit (mem_hexEncode there)

/-- The groups are the bytes. -/
theorem hexDecode_unhyphenated (bytes : Bytes) :
    hexDecode (unhyphenated (hyphenated bytes)) = bytes := by
  have pair (n : Nat) : (bytes.drop n).take 2 ++ bytes.drop (n + 2) = bytes.drop n := by
    rw [← List.drop_drop, List.take_append_drop]
  have plain : unhyphenated (hyphenated bytes) =
      hexEncode (bytes.take 4 ++ ((bytes.drop 4).take 2 ++ ((bytes.drop 6).take 2 ++
        ((bytes.drop 8).take 2 ++ bytes.drop 10)))) := by
    have hyphen (text : Bytes) : unhyphenated (45 :: text) = unhyphenated text := rfl
    have parts (text text' : Bytes) :
        unhyphenated (text ++ text') = unhyphenated text ++ unhyphenated text' :=
      List.filter_append ..
    simp only [hyphenated, List.append_assoc, List.cons_append, parts, hyphen,
      unhyphenated_hexEncode, hexEncode_append]
  rw [plain, pair 8, pair 6, pair 4, List.take_append_drop, hexDecode_hexEncode]

theorem hyphenated_injective : Function.Injective hyphenated := by
  intro bytes bytes' same
  rw [← hexDecode_unhyphenated bytes, same, hexDecode_unhyphenated]

theorem hyphenated_groups {timeLow timeMid timeHigh clockSeq node : Bytes}
    (h₁ : timeLow.length = 4) (h₂ : timeMid.length = 2) (h₃ : timeHigh.length = 2)
    (h₄ : clockSeq.length = 2) :
    hyphenated (timeLow ++ (timeMid ++ (timeHigh ++ (clockSeq ++ node)))) =
      hexEncode timeLow ++ 45 :: hexEncode timeMid ++ 45 :: hexEncode timeHigh ++
        45 :: hexEncode clockSeq ++ 45 :: hexEncode node := by
  simp [hyphenated, List.drop_append, List.drop_eq_nil_of_le, h₁, h₂, h₃, h₄]

/-! ## Version and variant -/

def stamped (bytes : Bytes) : Bytes := setVersion (setVariant bytes)

/-- The bytes without the bits that are set. -/
def freeBits (bytes : Bytes) : Bytes :=
  (bytes.modify 8 fun b => b &&& 0x3f).modify 6 fun b => b &&& 0x0f

theorem freeBits_stamped (bytes : Bytes) : freeBits (stamped bytes) = freeBits bytes := by
  have version : ∀ b : UInt8, (b &&& 0x0f ||| 0x40) &&& 0x0f = b &&& 0x0f :=
    forall_byte (by decide +kernel)
  have variant : ∀ b : UInt8, (b &&& 0x3f ||| 0x80) &&& 0x3f = b &&& 0x3f :=
    forall_byte (by decide +kernel)
  apply List.ext_getElem?
  intro i
  simp only [freeBits, stamped, setVersion, setVariant, List.getElem?_modify]
  cases bytes[i]? <;> grind

theorem stamped_freeBits (bytes : Bytes) : stamped (freeBits bytes) = stamped bytes := by
  have version : ∀ b : UInt8, b &&& 0x0f &&& 0x0f = b &&& 0x0f :=
    forall_byte (by decide +kernel)
  have variant : ∀ b : UInt8, b &&& 0x3f &&& 0x3f = b &&& 0x3f :=
    forall_byte (by decide +kernel)
  apply List.ext_getElem?
  intro i
  simp only [freeBits, stamped, setVersion, setVariant, List.getElem?_modify]
  cases bytes[i]? <;> grind

theorem stamped_eq_iff {bytes bytes' : Bytes} :
    stamped bytes = stamped bytes' ↔ freeBits bytes = freeBits bytes' := by
  constructor
  · intro same
    rw [← freeBits_stamped bytes, same, freeBits_stamped]
  · intro same
    rw [← stamped_freeBits bytes, same, stamped_freeBits]

/-! ## Well-formed texts -/

/-- `xxxxxxxx-xxxx-4xxx-yxxx-xxxxxxxxxxxx`, where `y` is one of `8`, `9`, `a` and `b`. -/
structure Version4 where
  timeLow : Bytes
  timeMid : Bytes
  timeHigh : Bytes
  clockSeq : Bytes
  node : Bytes
  hex : ∀ digit ∈ timeLow ++ timeMid ++ timeHigh ++ clockSeq ++ node, digit ∈ hexDigits
  lengths : timeLow.length = 8 ∧ timeMid.length = 4 ∧ timeHigh.length = 4 ∧
    clockSeq.length = 4 ∧ node.length = 12
  version : timeHigh.head? = some 52
  variant : ∃ digit ∈ asBytes "89ab", clockSeq.head? = some digit

def Version4.text (u : Version4) : Bytes :=
  u.timeLow ++ 45 :: u.timeMid ++ 45 :: u.timeHigh ++ 45 :: u.clockSeq ++ 45 :: u.node

theorem Version4.length_text (u : Version4) : u.text.length = 36 := by
  obtain ⟨h₁, h₂, h₃, h₄, h₅⟩ := u.lengths
  simp [Version4.text, h₁, h₂, h₃, h₄, h₅]

theorem head?_hexEncode (bytes : Bytes) :
    (hexEncode bytes).head? = bytes.head?.map fun b : UInt8 => hexDigit (b >>> 4) := by
  cases bytes <;> rfl

/-- The text of a hash. -/
def errandIdOf (hash : FixedBytes 16) : ErrandId := hyphenated (stamped hash.bytes)

section Hashes

variable (hash : FixedBytes 16)

theorem stamped_length : (stamped hash.bytes).length = 16 := by
  simp [stamped, setVersion, setVariant, hash.length_eq]

theorem stamped_version : ∃ b : UInt8, (stamped hash.bytes)[6]? = some (b &&& 0x0f ||| 0x40) := by
  have there : 6 < hash.bytes.length := by simp [hash.length_eq]
  refine ⟨hash.bytes[6], ?_⟩
  simp [stamped, setVersion, setVariant, there]

theorem stamped_variant : ∃ b : UInt8, (stamped hash.bytes)[8]? = some (b &&& 0x3f ||| 0x80) := by
  have there : 8 < hash.bytes.length := by simp [hash.length_eq]
  refine ⟨hash.bytes[8], ?_⟩
  simp [stamped, setVersion, setVariant, there]

/-- Every hash gives a well-formed text. -/
theorem exists_version4 : ∃ u : Version4, u.text = errandIdOf hash := by
  have length := stamped_length hash
  obtain ⟨high, version⟩ := stamped_version hash
  obtain ⟨clock, variant⟩ := stamped_variant hash
  have four : ∀ b : UInt8, hexDigit ((b &&& 0x0f ||| 0x40) >>> 4) = 52 :=
    forall_byte (by decide +kernel)
  have among : ∀ b : UInt8, hexDigit ((b &&& 0x3f ||| 0x80) >>> 4) ∈ asBytes "89ab" :=
    forall_byte (by decide +kernel)
  refine ⟨{
    timeLow := hexEncode ((stamped hash.bytes).take 4)
    timeMid := hexEncode (((stamped hash.bytes).drop 4).take 2)
    timeHigh := hexEncode (((stamped hash.bytes).drop 6).take 2)
    clockSeq := hexEncode (((stamped hash.bytes).drop 8).take 2)
    node := hexEncode ((stamped hash.bytes).drop 10)
    hex := ?_
    lengths := ?_
    version := ?_
    variant := ?_ }, rfl⟩
  · intro digit there
    simp only [← hexEncode_append] at there
    exact mem_hexEncode there
  · simp [hexEncode_length, length]
  · simp [head?_hexEncode, List.head?_take, version, four]
  · exact ⟨_, among clock, by simp [head?_hexEncode, List.head?_take, variant]⟩

end Hashes

/-- Bytes that have the version and the variant keep them. -/
theorem stamped_eq_self {bytes : Bytes} {high clock : UInt8} (sixth : bytes[6]? = some high)
    (eighth : bytes[8]? = some clock) (version : hexDigit (high >>> 4) = 52)
    (variant : hexDigit (clock >>> 4) ∈ asBytes "89ab") : stamped bytes = bytes := by
  have four : ∀ b : UInt8, hexDigit (b >>> 4) = 52 → b &&& 0x0f ||| 0x40 = b :=
    forall_byte (by decide +kernel)
  have among : ∀ b : UInt8, hexDigit (b >>> 4) ∈ asBytes "89ab" → b &&& 0x3f ||| 0x80 = b :=
    forall_byte (by decide +kernel)
  apply List.ext_getElem?
  intro i
  simp only [stamped, setVersion, setVariant, List.getElem?_modify]
  by_cases h₆ : 6 = i
  · subst h₆
    simp [sixth, four high version]
  · by_cases h₈ : 8 = i
    · subst h₈
      simp [eighth, among clock variant]
    · simp [h₆, h₈]

/-- Every well-formed text is that of a hash. -/
theorem Version4.exists_hash (u : Version4) : ∃ hash, errandIdOf hash = u.text := by
  obtain ⟨h₁, h₂, h₃, h₄, h₅⟩ := u.lengths
  have hex := u.hex
  simp only [List.mem_append, or_imp, forall_and] at hex
  obtain ⟨⟨⟨⟨hex₁, hex₂⟩, hex₃⟩, hex₄⟩, hex₅⟩ := hex
  obtain ⟨timeLow, n₁, low⟩ := exists_hexEncode 4 h₁ hex₁
  obtain ⟨timeMid, n₂, mid⟩ := exists_hexEncode 2 h₂ hex₂
  obtain ⟨timeHigh, n₃, high⟩ := exists_hexEncode 2 h₃ hex₃
  obtain ⟨clockSeq, n₄, clock⟩ := exists_hexEncode 2 h₄ hex₄
  obtain ⟨node, n₅, last⟩ := exists_hexEncode 6 h₅ hex₅
  have version := u.version
  obtain ⟨digit, among, variant⟩ := u.variant
  rw [← high, head?_hexEncode] at version
  rw [← clock, head?_hexEncode] at variant
  obtain ⟨b₆, first₆, version⟩ := Option.map_eq_some_iff.mp version
  obtain ⟨b₈, first₈, rfl⟩ := Option.map_eq_some_iff.mp variant
  let bytes := timeLow ++ (timeMid ++ (timeHigh ++ (clockSeq ++ node)))
  have sixth : bytes[6]? = some b₆ := by
    rw [← first₆, List.head?_eq_getElem?]
    simp [bytes, List.getElem?_append, n₁, n₂, n₃]
  have eighth : bytes[8]? = some b₈ := by
    rw [← first₈, List.head?_eq_getElem?]
    simp [bytes, List.getElem?_append, n₁, n₂, n₃, n₄]
  refine ⟨⟨bytes, by simp [bytes, n₁, n₂, n₃, n₄, n₅]⟩, ?_⟩
  rw [errandIdOf, stamped_eq_self sixth eighth version among, hyphenated_groups n₁ n₂ n₃ n₄,
    low, mid, high, clock, last]
  rfl

/-! ## What an identifier tells -/

section Identifiers

variable {AccountId Ledger : Type} [Codec AccountId] (T : Trait AccountId Ledger)

def errandHash (env : Env) (sender : AccountId) : FixedBytes 16 :=
  T.blake2_128 (env.randomSeed ++ Codec.encode sender ++ encodeOptionU32 env.extrinsicIndex)

theorem generateErrandId_eq (env : Env) (sender : AccountId) :
    generateErrandId T env sender = errandIdOf (errandHash T env sender) := rfl

/-- The identifiers are the version 4 UUIDs, every one of which some hash gives; and two of them
are equal exactly if the hashes agree outside of the six bits that are set. -/
theorem errand_ids_are_uuids :
    (∀ env sender, ∃ u : Version4, generateErrandId T env sender = u.text) ∧
      (∀ u : Version4, ∃ hash, ∀ env sender, errandHash T env sender = hash →
        generateErrandId T env sender = u.text) ∧
      ∀ env sender env' sender',
        generateErrandId T env sender = generateErrandId T env' sender' ↔
          freeBits (errandHash T env sender).bytes =
            freeBits (errandHash T env' sender').bytes := by
  refine ⟨fun env sender => ?_, fun u => ?_, fun env sender env' sender' => ?_⟩
  · obtain ⟨u, text⟩ := exists_version4 (errandHash T env sender)
    exact ⟨u, text.symm⟩
  · obtain ⟨hash, text⟩ := u.exists_hash
    exact ⟨hash, fun env sender same => by rw [generateErrandId_eq, same, text]⟩
  · rw [generateErrandId_eq, generateErrandId_eq, errandIdOf, errandIdOf,
      hyphenated_injective.eq_iff, stamped_eq_iff]

end Identifiers

/-- Two tasks in the same block for the same delegate. -/
theorem errand_ids_are_uuids_bob :
    generateErrandId runtime (firstBlock 2) bob ≠ generateErrandId runtime (firstBlock 3) bob := by
  intro same
  have hashes := ((errand_ids_are_uuids runtime).2.2 _ bob _ bob).mp same
  revert hashes
  decide +kernel

end AbcDemo.Pallet
