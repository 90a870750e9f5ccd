import Mathlib.Data.Nat.Digits.Lemmas
import AbcDemo.Foundation.Blake2b

/-! # Account texts

A byte string is written in base 58, where leading zeros are kept as they are,
and an account is written with the version of its network in front and the
start of a hash behind. Different byte strings have different texts.
-/

namespace AbcDemo.Foundation

/-! ## Changing the base of a numeral -/

/-- Digits are most significant first, and leading zeros carry over. -/
def rebase (b b' : Nat) : List Nat → List Nat
  | 0 :: digits => 0 :: rebase b b' digits
  | digits => (Nat.digits b' (Nat.ofDigits b digits.reverse)).reverse

section Rebase

variable {b b' : Nat}

theorem rebase_of_ne_zero {d : Nat} (hd : d ≠ 0) (digits : List Nat) :
    rebase b b' (d :: digits) =
      (Nat.digits b' (Nat.ofDigits b (d :: digits).reverse)).reverse := by
  unfold rebase
  split
  · rename_i h
    exact absurd (List.cons.inj h).1 hd
  · rfl

theorem digits_ofDigits_reverse (hb : 1 < b) {d : Nat} (hd : d ≠ 0) {digits : List Nat}
    (small : ∀ e ∈ d :: digits, e < b) :
    (Nat.digits b (Nat.ofDigits b (d :: digits).reverse)).reverse = d :: digits := by
  rw [Nat.digits_ofDigits b hb, List.reverse_reverse]
  · intro e he
    exact small e (List.mem_reverse.mp he)
  · intro _
    simpa using hd

/-- The numeral of a positive number does not begin with a zero. -/
theorem digits_reverse_eq_cons (b : Nat) {value : Nat} (positive : value ≠ 0) :
    ∃ d digits, d ≠ 0 ∧ (Nat.digits b value).reverse = d :: digits := by
  have last := Nat.getLast_digit_ne_zero b positive
  cases h : (Nat.digits b value).reverse with
  | nil => exact absurd (by simpa using h) (Nat.digits_ne_nil_iff_ne_zero.mpr positive)
  | cons d digits =>
      have reversed : Nat.digits b value = digits.reverse ++ [d] := by
        rw [← List.reverse_reverse (Nat.digits b value), h, List.reverse_cons]
      simp only [reversed, List.getLast_append_singleton] at last
      exact ⟨d, digits, last, rfl⟩

theorem rebase_rebase (hb : 1 < b) (digits : List Nat) (small : ∀ d ∈ digits, d < b) :
    rebase b' b (rebase b b' digits) = digits := by
  induction digits with
  | nil => simp [rebase]
  | cons d digits ih =>
      by_cases hd : d = 0
      · subst hd
        rw [rebase, rebase, ih fun e he => small e (List.mem_cons_of_mem _ he)]
      · have same := digits_ofDigits_reverse hb hd small
        have positive : Nat.ofDigits b (d :: digits).reverse ≠ 0 := by
          intro h
          rw [h] at same
          simp at same
        obtain ⟨e, others, he, leading⟩ := digits_reverse_eq_cons b' positive
        rw [rebase_of_ne_zero hd, leading, rebase_of_ne_zero he, ← leading, List.reverse_reverse,
          Nat.ofDigits_digits, same]

theorem rebase_lt (hb' : 1 < b') (digits : List Nat) : ∀ d ∈ rebase b b' digits, d < b' := by
  induction digits with
  | nil => simp [rebase]
  | cons d digits ih =>
      by_cases hd : d = 0
      · subst hd
        intro e he
        rcases List.mem_cons.mp he with rfl | he
        · exact Nat.zero_lt_of_lt hb'
        · exact ih e he
      · rw [rebase_of_ne_zero hd]
        intro e he
        exact Nat.digits_lt_base hb' (List.mem_reverse.mp he)

end Rebase

/-! ## Base 58 -/

/-- Digits and letters without the four that are easily confused. -/
def base58Alphabet : List Char :=
  "123456789ABCDEFGHJKLMNPQRSTUVWXYZabcdefghijkmnopqrstuvwxyz".toList

def base58Digit (d : Nat) : Char := base58Alphabet.getD d '1'

def base58 (bytes : Bytes) : String :=
  .ofList ((rebase 256 58 (bytes.map UInt8.toNat)).map base58Digit)

theorem base58Digit_mem : ∀ d < 58, base58Digit d ∈ base58Alphabet := by
  decide +kernel

theorem idxOf_base58Digit : ∀ d < 58, base58Alphabet.idxOf (base58Digit d) = d := by
  decide +kernel

theorem mem_alphabet_of_mem_base58 {bytes : Bytes} {c : Char} (hc : c ∈ (base58 bytes).toList) :
    c ∈ base58Alphabet := by
  rw [base58, String.toList_ofList] at hc
  obtain ⟨d, hd, rfl⟩ := List.mem_map.mp hc
  exact base58Digit_mem d (rebase_lt (by decide) _ d hd)

theorem base58_injective : Function.Injective base58 := by
  intro bytes bytes' same
  have texts : (rebase 256 58 (bytes.map UInt8.toNat)).map base58Digit =
      (rebase 256 58 (bytes'.map UInt8.toNat)).map base58Digit := by
    simpa [base58] using congrArg String.toList same
  have read : ∀ digits : List Nat, (∀ d ∈ digits, d < 58) →
      (digits.map base58Digit).map base58Alphabet.idxOf = digits := by
    intro digits small
    rw [List.map_map]
    conv_rhs => rw [← List.map_id digits]
    exact List.map_congr_left fun d hd => idxOf_base58Digit d (small d hd)
  have numerals := congrArg (List.map base58Alphabet.idxOf) texts
  rw [read _ (rebase_lt (by decide) _), read _ (rebase_lt (by decide) _)] at numerals
  have byte : ∀ bytes : Bytes, ∀ d ∈ bytes.map UInt8.toNat, d < 256 := by
    intro bytes d hd
    obtain ⟨b, _, rfl⟩ := List.mem_map.mp hd
    exact b.toNat_lt
  have values := congrArg (rebase 58 256) numerals
  rw [rebase_rebase (by decide) _ (byte bytes), rebase_rebase (by decide) _ (byte bytes')] at values
  exact List.map_injective_iff.mpr (fun _ _ => UInt8.toNat_inj.mp) values

/-! ## Accounts -/

def ss58 {n : Nat} (version : UInt8) (account : FixedBytes n) : String :=
  let body := version :: account.bytes
  let checksum := (Blake2b.hash 64 (asBytes "SS58PRE" ++ body)).bytes.take 2
  base58 (body ++ checksum)

theorem ss58_injective {n : Nat} (version : UInt8) :
    Function.Injective (ss58 version : FixedBytes n → String) := by
  intro account account' same
  have bodies := (List.append_inj (base58_injective same)
    (by simp [account.length_eq, account'.length_eq])).1
  cases account
  cases account'
  cases bodies
  rfl

example : ss58 42 (.fill 0 : FixedBytes 32) =
    "5C4hrfjw9DjXZTzV3MwzrrAr9P1MJhSrvWGWqi1eSuyUpnhM" := by
  decide +kernel

end AbcDemo.Foundation
