import AbcDemo.Pallet.History

/-! # The configured runtime

The node's runtime instantiates the pallet with 32-byte accounts, a balances
ledger and the 128-bit hash. The local test network lists four accounts that
may submit results and runs in production mode.
-/

namespace AbcDemo.Pallet

open Foundation

abbrev Balances := AccountId32 → AccountData

def runtime : Trait AccountId32 Balances where
  currency := AccountLedger.currency fun
    | .insufficientBalance => .foreign 3
    | .deadAccount => .foreign 7
  blake2_128 := Blake2b.hash 16

theorem runtime_lawful : runtime.currency.Lawful := AccountLedger.currency_lawful _

def alice : AccountId32 := .fill 1
def bob : AccountId32 := .fill 2
def charlie : AccountId32 := .fill 3
def dave : AccountId32 := .fill 4

/-- Every listed account is endowed with `1 << 60`. -/
def endowed : Balances := fun a =>
  if a ∈ [alice, bob, charlie, dave] then ⟨2 ^ 60, 0⟩ else ⟨0, 0⟩

theorem endowed_unreserved (a : AccountId32) : runtime.currency.reservedBalance endowed a = 0 := by
  simp only [runtime, AccountLedger.currency, endowed]
  split <;> rfl

def localTestnet : State AccountId32 Balances :=
  genesis false [alice, bob, charlie, dave] endowed

def firstBlock (index : UInt32) : Env := ⟨1, List.replicate 32 0, some index⟩

/-- The extrinsic with this index in the first block. -/
def submit (index : UInt32) (who : AccountId32) (call : Call AccountId32) :
    Extrinsic AccountId32 :=
  ⟨firstBlock index, .signed who, call⟩

/-- Bob registers as a delegate under a name and activates himself. -/
def bobDelegates : List (Extrinsic AccountId32) :=
  [submit 0 bob (.requestDelegate [1] [9]), submit 1 bob (.updateDelegateStatus bob)]

end AbcDemo.Pallet
