import AbcDemo.Pallet.ErrandText
import AbcDemo.Worker.Conduct

/-! # What a service reads off a post

A service has nothing but the URL of a post that has come to its address, and of
that nothing from `#` on. It tells the three requests of the protocol apart by
their first letter, and reads off a task what was sent: no text of an account
has a slash, an identifier has 36 bytes, and no signature in digits has a
question mark. Of a description, or of an identifier that a transaction has made
up, it reads the part before `#`.
-/

namespace AbcDemo.Worker

open Foundation Pallet Offchain

/-- What a post says, besides the address that it goes to. -/
inductive Message where
  | application (content : Bytes)
  | task (client : AccountId32) (errandId : ErrandId) (sig : Bytes) (descriptionCid : Cid)
  | query (errandId : ErrandId)

variable (F : Formats)

/-- The post to this URL says `m` to the service at this address. -/
def Message.Posted (netAddress : NetAddress) (url : String) : Message → Prop
  | .application content =>
      ∃ account buf, F.beMyDelegateRequest (F.text account) [] = .ok buf ∧
        asBytes (F.base64 buf) = content ∧ applyUrl F account netAddress = some url
  | .task client errandId sig descriptionCid =>
      (∃ u : Version4, errandId = u.text) ∧
        taskUrl (F.text client) descriptionCid errandId netAddress sig = some url
  | .query errandId => queryUrl errandId netAddress = some url

/-- What is sent of a URL, or of its last part: nothing from `#` on. -/
def beforeHash (bytes : Bytes) : Bytes := bytes.takeWhile fun c => c != 35

/-- What comes of a message to the service. -/
def Message.received : Message → Message
  | .application content => .application (beforeHash content)
  | .task client errandId sig descriptionCid =>
      .task client errandId sig (beforeHash descriptionCid)
  | .query errandId => .query (beforeHash errandId)

/-! ## URLs as bytes -/

/-- What follows the address. -/
def Message.path : Message → Bytes
  | .application content => asBytes applyDelegatePath ++ asBytes "?content=" ++ content
  | .task client errandId sig descriptionCid =>
      asBytes sendErrandTaskAction ++ asBytes "/" ++ asBytes (F.text client) ++ asBytes "/" ++
        errandId ++ asBytes "/" ++ hexEncode sig ++ asBytes "?content=" ++ descriptionCid
  | .query errandId => asBytes queryErrandResultAction ++ asBytes "/" ++ errandId

theorem asBytes_hexText (bytes : Bytes) : asBytes (hexText bytes) = hexEncode bytes := by
  have digit : ∀ d ∈ hexDigits,
      (Char.ofNat d.toNat).utf8Size = 1 ∧ (Char.ofNat d.toNat).val.toUInt8 = d := by
    decide +kernel
  rw [asBytes_ascii, hexText, String.toList_ofList, List.map_map]
  · conv_rhs => rw [← List.map_id (hexEncode bytes)]
    exact List.map_congr_left fun d there => (digit d (mem_hexEncode there)).2
  · intro c there
    rw [hexText, String.toList_ofList] at there
    obtain ⟨d, hd, rfl⟩ := List.mem_map.mp there
    exact (digit d (mem_hexEncode hd)).1

theorem asBytes_getUrl {netAddress : NetAddress} {serviceUrl : String}
    (found : getUrl netAddress = .ok serviceUrl) :
    asBytes serviceUrl = asBytes serviceBaseUrlPrefix ++ netAddress := by
  unfold getUrl at found
  split at found
  · rename_i str text
    cases found
    rw [asBytes_append, asBytes_of_fromUtf8 text]
  · cases found

variable {F} {netAddress : NetAddress} {url : String} {m m' : Message}

theorem bytes_of_applyUrl {account : AccountId32}
    (asked : applyUrl F account netAddress = some url) :
    ∃ buf, F.beMyDelegateRequest (F.text account) [] = .ok buf ∧
      asBytes url = asBytes serviceBaseUrlPrefix ++ netAddress ++
        (Message.application (asBytes (F.base64 buf))).path F := by
  unfold applyUrl at asked
  split at asked
  · rename_i serviceUrl buf found encoded
    cases asked
    refine ⟨buf, encoded, ?_⟩
    simp only [asBytes_append, asBytes_getUrl found, Message.path, List.append_assoc]
  · cases asked

theorem Message.Posted.bytes (posted : m.Posted F netAddress url) :
    asBytes url = asBytes serviceBaseUrlPrefix ++ netAddress ++ m.path F := by
  cases m with
  | application content =>
      obtain ⟨account, buf, encoded, rfl, asked⟩ := posted
      obtain ⟨buf', encoded', bytes⟩ := bytes_of_applyUrl asked
      rw [encoded] at encoded'
      cases encoded'
      exact bytes
  | task client errandId sig descriptionCid =>
      obtain ⟨_, asked⟩ := posted
      unfold taskUrl at asked
      split at asked
      · rename_i cid serviceUrl uuid text found identifier
        cases asked
        simp only [asBytes_append, asBytes_getUrl found, asBytes_of_fromUtf8 text,
          asBytes_of_fromUtf8 identifier, asBytes_hexText, Message.path, List.append_assoc]
      · cases asked
  | query errandId =>
      have asked : queryUrl errandId netAddress = some url := posted
      unfold queryUrl at asked
      split at asked
      · rename_i serviceUrl uuid found identifier
        cases asked
        simp only [asBytes_append, asBytes_getUrl found, asBytes_of_fromUtf8 identifier,
          Message.path, List.append_assoc]
      · cases asked

/-- The identifier of a task is a generated one. -/
def Message.Formed : Message → Prop
  | .task _ errandId _ _ => ∃ u : Version4, errandId = u.text
  | _ => True

theorem Message.Posted.formed (posted : m.Posted F netAddress url) : m.Formed := by
  cases m with
  | application content => trivial
  | task client errandId sig descriptionCid => exact posted.1
  | query errandId => trivial

theorem Message.Formed.received (formed : m.Formed) : m.received.Formed := by
  cases m with
  | application content => trivial
  | task client errandId sig descriptionCid => exact formed
  | query errandId => trivial

/-! ## Reading -/

/-- The part up to a separator is the same in the same text. -/
theorem append_cons_inj {α : Type} {c : α} {xs xs' ys ys' : List α} (before : c ∉ xs)
    (before' : c ∉ xs') (same : xs ++ c :: ys = xs' ++ c :: ys') : xs = xs' ∧ ys = ys' := by
  induction xs generalizing xs' with
  | nil =>
      cases xs' with
      | nil => exact ⟨rfl, (List.cons.inj same).2⟩
      | cons x' xs' =>
          exact absurd (List.cons.inj same).1 (List.ne_of_not_mem_cons before')
  | cons x xs ih =>
      cases xs' with
      | nil => exact absurd (List.cons.inj same).1.symm (List.ne_of_not_mem_cons before)
      | cons x' xs' =>
          obtain ⟨head, tail⟩ := List.cons.inj same
          obtain ⟨rfl, rfl⟩ :=
            ih (List.not_mem_of_not_mem_cons before) (List.not_mem_of_not_mem_cons before') tail
          exact ⟨by rw [head], rfl⟩

/-- A byte that is no letter of the alphabet is in no account's text. -/
theorem notMem_text (hss58 : Ss58Text F.text) (account : AccountId32) {b : UInt8}
    (letters : base58Alphabet.all (fun c => c.utf8Size == 1 && c.val.toUInt8 != b) = true) :
    b ∉ asBytes (F.text account) := by
  have letter (c : Char) (there : c ∈ base58Alphabet) : c.utf8Size = 1 ∧ c.val.toUInt8 ≠ b := by
    simpa using List.all_eq_true.mp letters c there
  rw [asBytes_ascii fun c there => (letter c (hss58.base58 account c there)).1]
  intro listed
  obtain ⟨c, there, same⟩ := List.mem_map.mp listed
  exact (letter c (hss58.base58 account c there)).2 same

/-- The letter behind `/api/`. -/
def Message.letter : Message → UInt8
  | .application _ => 98
  | .task .. => 115
  | .query _ => 113

theorem Message.path_letter (m : Message) : (m.path F)[5]? = some m.letter := by
  have letters : (asBytes applyDelegatePath)[5]? = some 98 ∧
      (asBytes sendErrandTaskAction)[5]? = some 115 ∧
      (asBytes queryErrandResultAction)[5]? = some 113 := by
    decide +kernel
  have long : 5 < (asBytes applyDelegatePath).length ∧ 5 < (asBytes sendErrandTaskAction).length ∧
      5 < (asBytes queryErrandResultAction).length := by
    decide +kernel
  cases m <;> simp only [Message.path, Message.letter, List.append_assoc]
  · rw [List.getElem?_append_left long.1, letters.1]
  · rw [List.getElem?_append_left long.2.1, letters.2.1]
  · rw [List.getElem?_append_left long.2.2, letters.2.2]

/-- Two tasks under one URL are the same. -/
theorem task_unique (hss58 : Ss58Text F.text) {client client' : AccountId32} {u u' : Version4}
    {sig sig' : Bytes} {cid cid' : Cid}
    (same : (Message.task client u.text sig cid).path F =
      (Message.task client' u'.text sig' cid').path F) :
    Message.task client u.text sig cid = .task client' u'.text sig' cid' := by
  have letters :
      base58Alphabet.all (fun c => c.utf8Size == 1 && c.val.toUInt8 != 47) = true := by
    decide +kernel
  have slash : asBytes "/" = [47] := by decide +kernel
  have question : asBytes "?content=" = 63 :: asBytes "content=" := by decide +kernel
  have digits (sig : Bytes) : (63 : UInt8) ∉ hexEncode sig := by
    have other : (63 : UInt8) ∉ hexDigits := by decide +kernel
    exact fun there => other (mem_hexEncode there)
  simp only [Message.path, slash, question, List.append_assoc, List.cons_append, List.nil_append,
    List.append_cancel_left_eq, List.cons.injEq, true_and] at same
  obtain ⟨clients, rest⟩ :=
    append_cons_inj (notMem_text hss58 client letters) (notMem_text hss58 client' letters) same
  obtain ⟨ids, rest⟩ := List.append_inj rest (by rw [u.length_text, u'.length_text])
  obtain ⟨sigs, rest⟩ := append_cons_inj (digits sig) (digits sig') (List.cons.inj rest).2
  have cids := List.append_cancel_left rest
  rw [hss58.injective (asBytes_injective clients), ids, hexEncode_injective sigs, cids]

/-- Two posts under one path say the same. -/
theorem path_unique (hss58 : Ss58Text F.text) (formed : m.Formed) (formed' : m'.Formed)
    (same : m.path F = m'.path F) : m = m' := by
  have letters : m.letter = m'.letter := by
    have letter := congrArg (fun path => path[5]?) same
    simpa only [Message.path_letter, Option.some.injEq] using letter
  cases m with
  | application content =>
      cases m' with
      | application content' => rw [List.append_cancel_left same]
      | task => simp [Message.letter] at letters
      | query => simp [Message.letter] at letters
  | task client errandId sig cid =>
      cases m' with
      | application => simp [Message.letter] at letters
      | task client' errandId' sig' cid' =>
          obtain ⟨u, rfl⟩ := formed
          obtain ⟨u', rfl⟩ := formed'
          exact task_unique hss58 same
      | query => simp [Message.letter] at letters
  | query errandId =>
      cases m' with
      | application => simp [Message.letter] at letters
      | task => simp [Message.letter] at letters
      | query errandId' => rw [List.append_cancel_left same]

/-! ## Up to the hash -/

theorem beforeHash_append {xs : Bytes} (plain : 35 ∉ xs) (ys : Bytes) :
    beforeHash (xs ++ ys) = xs ++ beforeHash ys := by
  apply List.takeWhile_append_of_pos
  intro c there
  simpa using ne_of_mem_of_not_mem there plain

theorem hash_notMem_hexDigits : (35 : UInt8) ∉ hexDigits := by decide +kernel

theorem hash_notMem_version4 (u : Version4) : (35 : UInt8) ∉ u.text := by
  have groups : (35 : UInt8) ∉ u.timeLow ++ u.timeMid ++ u.timeHigh ++ u.clockSeq ++ u.node :=
    fun there => hash_notMem_hexDigits (u.hex 35 there)
  simpa [Version4.text] using groups

/-- Only what the last part holds can be cut off. -/
theorem beforeHash_path (hss58 : Ss58Text F.text) (formed : m.Formed) :
    beforeHash (m.path F) = m.received.path F := by
  have application : (35 : UInt8) ∉ asBytes applyDelegatePath ++ asBytes "?content=" := by
    decide +kernel
  have question : (35 : UInt8) ∉ asBytes "?content=" := by decide +kernel
  have slash : (35 : UInt8) ∉ asBytes "/" := by decide +kernel
  have sends : (35 : UInt8) ∉ asBytes sendErrandTaskAction := by decide +kernel
  have queries : (35 : UInt8) ∉ asBytes queryErrandResultAction ++ asBytes "/" := by
    decide +kernel
  have letters :
      base58Alphabet.all (fun c => c.utf8Size == 1 && c.val.toUInt8 != 35) = true := by
    decide +kernel
  cases m with
  | application content => exact beforeHash_append application content
  | task client errandId sig cid =>
      obtain ⟨u, rfl⟩ := formed
      apply beforeHash_append
      simp only [List.mem_append, not_or]
      exact ⟨⟨⟨⟨⟨⟨⟨sends, slash⟩, notMem_text hss58 client letters⟩, slash⟩,
        hash_notMem_version4 u⟩, slash⟩, fun there => hash_notMem_hexDigits (mem_hexEncode there)⟩,
        question⟩
  | query errandId => exact beforeHash_append queries errandId

/-- What comes to the service at an address can be read in one way only. -/
theorem Message.Posted.unique {url' : String} (hss58 : Ss58Text F.text)
    (plain : 35 ∉ netAddress) (posted : m.Posted F netAddress url)
    (posted' : m'.Posted F netAddress url')
    (same : beforeHash (asBytes url) = beforeHash (asBytes url')) : m.received = m'.received := by
  have address : (35 : UInt8) ∉ asBytes serviceBaseUrlPrefix ++ netAddress := by
    have scheme : (35 : UInt8) ∉ asBytes serviceBaseUrlPrefix := by decide +kernel
    simpa only [List.mem_append, not_or] using ⟨scheme, plain⟩
  rw [posted.bytes, posted'.bytes, beforeHash_append address, beforeHash_append address,
    beforeHash_path hss58 posted.formed, beforeHash_path hss58 posted'.formed] at same
  exact path_unique hss58 posted.formed.received posted'.formed.received
    (List.append_cancel_left same)

end AbcDemo.Worker
