import AbcDemo.Foundation.Locking
import AbcDemo.Foundation.Uninterrupted
import AbcDemo.Pallet.Calls

/-! # Local storage under a lock

The workers of a node keep data in local storage cells, and each data cell has
a lock cell of its own. Whoever finds the lock held gives up instead of
waiting.
-/

namespace AbcDemo.Offchain

open Foundation Pallet

/-- `locked` and `lock` are the two errors about a local storage key. -/
inductive TaskError where
  | response
  | locked (key : Bytes)
  | lock (key : Bytes)
  | module (error : Error)
  deriving DecidableEq

/-- What a transaction sent with every local key came to. -/
abbrev SendResult (AccountId : Type) : Type := List (AccountId × Except Unit Unit)

/-- The programs of a worker send transactions. -/
abbrev WorkerM (AccountId : Type) : Type → Type :=
  Program (Call AccountId) (fun _ => SendResult AccountId) TaskError

variable {AccountId : Type}

/-- The closure that the users of a lock pass to `mutate`. -/
def ifFree (locked : TaskError) : Option (Option Bool) → Except TaskError Bool
  | none => .ok true
  | some (some false) => .ok true
  | _ => .error locked

theorem ifFree_eq_true {locked : TaskError} {cell : Option (Option Bool)} {new : Bool}
    (free : ifFree locked cell = .ok new) : new = true := by
  unfold ifFree at free
  split at free <;> cases free <;> rfl

/-- A body that stops early leaves the lock as it is. -/
def underLock {R : Type} (lockKey : Bytes) (locked failed : TaskError)
    (body : WorkerM AccountId R) : WorkerM AccountId R := do
  let lock : StorageValueRef := ⟨lockKey⟩
  match ← lock.mutate (ifFree locked) with
  | .ok true => do
      let rtn ← body
      lock.set false
      pure rtn
  | _ => .fail failed

def operateLocalStorage {R : Type} (key lockKey : Bytes)
    (callback : StorageValueRef → WorkerM AccountId R) : WorkerM AccountId R :=
  underLock lockKey (.locked key) (.lock key) (callback ⟨key⟩)

/-- The lock cell holds `true`. -/
def LockHeld (cell : Option Bytes) : Prop :=
  (cell.map Codec.decode : Option (Option Bool)) = some (some true)

instance (cell : Option Bytes) : Decidable (LockHeld cell) :=
  inferInstanceAs (Decidable (_ = _))

/-- A body that restores the invariant may run under the lock. -/
theorem outside_underLock {W Op R : Type} {lockKey : Bytes}
    {Inv : LocalStorage → List (LogEntry W Op (Call AccountId)) → Prop} {locked failed : TaskError}
    {body : WorkerM AccountId R} {f : R → WorkerM AccountId Unit} (w : W) (op : Op)
    (restores : ∀ store h, Inv store h →
      Inside lockKey LockHeld Inv w op
        (body >>= fun rtn => .set lockKey (Codec.encode false) (f rtn)) store h) :
    Outside lockKey LockHeld Inv w op (underLock lockKey locked failed body >>= f) := by
  have acquired : ∀ store h, Inv store h →
      Inside lockKey LockHeld Inv w op
        (body >>= (fun rtn => Program.set lockKey (Codec.encode false) (.done rtn)) >>= f)
        store h := by
    intro store h inv
    rw [Program.bind_assoc]
    exact restores store h inv
  unfold underLock StorageValueRef.mutate StorageValueRef.set
  simp only [Program.get_bind, Outside]
  intro value
  rcases hcell : value.map Codec.decode with _ | _ | _ | _
  · simpa [ifFree, Outside, LockHeld, hcell] using acquired
  · trivial
  · simpa [ifFree, Outside, LockHeld, hcell] using acquired
  · trivial

/-! ## Without interruption -/

section Alone

variable {World R : Type} (respond : Call AccountId → World → SendResult AccountId × World)

/-- The closure of every user lets it acquire the lock. -/
def LockFree (cell : Option Bytes) : Prop :=
  ∀ locked, ifFree locked (cell.map Codec.decode) = .ok true

theorem lockFree_none : LockFree none := fun _ => rfl

theorem lockFree_false : LockFree (some (Codec.encode false)) := fun _ => rfl

/-- A free lock is held for the time of the body and free again behind it. -/
theorem run_underLock {lockKey : Bytes} (locked failed : TaskError)
    (body : WorkerM AccountId R) {s : LocalStorage × World}
    (free : LockFree (s.1.find lockKey)) :
    ((underLock lockKey locked failed body).alone respond).run s =
      (Dispatch.andThen
        ((body.alone respond).run (s.1.insert lockKey (Codec.encode true), s.2)) fun rtn =>
          (Program.set lockKey (Codec.encode false) (.done rtn)).alone respond).prepend
        [.swapped lockKey (Codec.encode true)] := by
  unfold underLock StorageValueRef.mutate StorageValueRef.set
  simp only [Program.get_bind, Program.run_alone_get, free locked]
  simp [Program.run_alone_bind]

theorem writesOnly_underLock {allowed : Bytes → Prop} {lockKey : Bytes} (hlock : allowed lockKey)
    (locked failed : TaskError) {body : WorkerM AccountId R} (hbody : body.WritesOnly allowed) :
    (underLock lockKey locked failed body).WritesOnly allowed := by
  apply (Program.writesOnly_mutate ⟨lockKey⟩ hlock (ifFree locked)).bind
  intro result
  split
  · apply hbody.bind
    intro rtn
    exact (Program.writesOnly_set ⟨lockKey⟩ hlock false).bind fun _ => trivial
  · trivial

end Alone

end AbcDemo.Offchain
