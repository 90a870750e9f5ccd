import AbcDemo.Foundation.Codec
import AbcDemo.Foundation.StorageMap

/-! # Programs over a node's local storage

The local storage of a node is shared by all workers of the node, and only a
single get, set or compare-and-set is atomic. A program is a tree of such
operations, of requests that the outside world answers, and of stops, so
another worker may come between any two of its operations.
-/

namespace AbcDemo.Foundation

abbrev LocalStorage : Type := StorageMap Bytes Bytes

/-- Programs that ask requests `q` for answers in `A q`, return a value of `α`
and may stop with an error of `ε`. -/
inductive Program (Q : Type) (A : Q → Type) (ε α : Type) where
  | done (a : α)
  | fail (e : ε)
  | get (key : Bytes) (next : Option Bytes → Program Q A ε α)
  | set (key value : Bytes) (next : Program Q A ε α)
  | compareAndSet (key : Bytes) (old : Option Bytes) (new : Bytes)
      (next : Bool → Program Q A ε α)
  | ask (q : Q) (next : A q → Program Q A ε α)

namespace Program

variable {Q : Type} {A : Q → Type} {ε α β : Type}

def andThen (f : α → Program Q A ε β) : Program Q A ε α → Program Q A ε β
  | .done a => f a
  | .fail e => .fail e
  | .get key next => .get key fun value => andThen f (next value)
  | .set key value next => .set key value (andThen f next)
  | .compareAndSet key old new next =>
      .compareAndSet key old new fun swapped => andThen f (next swapped)
  | .ask q next => .ask q fun answer => andThen f (next answer)

instance : Monad (Program Q A ε) where
  pure := .done
  bind x f := andThen f x

/-- The answer to one request. -/
def request (q : Q) : Program Q A ε (A q) := .ask q .done

theorem bind_assoc {γ : Type} (x : Program Q A ε α) (f : α → Program Q A ε β)
    (g : β → Program Q A ε γ) : x >>= f >>= g = x >>= fun a => f a >>= g := by
  induction x with
  | done a => rfl
  | fail e => rfl
  | get key next ih => exact congrArg (Program.get key) (funext ih)
  | set key value next ih => exact congrArg (Program.set key value) ih
  | compareAndSet key old new next ih =>
      exact congrArg (Program.compareAndSet key old new) (funext ih)
  | ask q next ih => exact congrArg (Program.ask q) (funext ih)

theorem bind_done (x : Program Q A ε α) : x >>= done = x := by
  induction x with
  | done a => rfl
  | fail e => rfl
  | get key next ih => exact congrArg (Program.get key) (funext ih)
  | set key value next ih => exact congrArg (Program.set key value) ih
  | compareAndSet key old new next ih =>
      exact congrArg (Program.compareAndSet key old new) (funext ih)
  | ask q next ih => exact congrArg (Program.ask q) (funext ih)

@[simp] theorem pure_eq (a : α) : (pure a : Program Q A ε α) = .done a := rfl

@[simp] theorem done_bind (a : α) (f : α → Program Q A ε β) : done a >>= f = f a := rfl

@[simp] theorem fail_bind (e : ε) (f : α → Program Q A ε β) : fail e >>= f = .fail e := rfl

@[simp] theorem get_bind (key : Bytes) (next : Option Bytes → Program Q A ε α)
    (f : α → Program Q A ε β) : get key next >>= f = .get key fun value => next value >>= f := rfl

@[simp] theorem set_bind (key value : Bytes) (next : Program Q A ε α) (f : α → Program Q A ε β) :
    set key value next >>= f = .set key value (next >>= f) := rfl

@[simp] theorem compareAndSet_bind (key : Bytes) (old : Option Bytes) (new : Bytes)
    (next : Bool → Program Q A ε α) (f : α → Program Q A ε β) :
    compareAndSet key old new next >>= f =
      .compareAndSet key old new fun swapped => next swapped >>= f := rfl

@[simp] theorem ask_bind (q : Q) (next : A q → Program Q A ε α) (f : α → Program Q A ε β) :
    ask q next >>= f = .ask q fun answer => next answer >>= f := rfl

end Program

/-! ## Typed access to a cell -/

/-- One key of the local storage, accessed through a codec. -/
structure StorageValueRef where
  key : Bytes

namespace StorageValueRef

variable {Q : Type} {A : Q → Type} {ε : Type} {T : Type} [Codec T]

/-- Absent, present but not decodable, or a value. -/
def get (T : Type) [Codec T] (ref : StorageValueRef) :
    Program Q A ε (Option (Option T)) :=
  .get ref.key fun value => .done (value.map Codec.decode)

def set (ref : StorageValueRef) (value : T) : Program Q A ε Unit :=
  .set ref.key (Codec.encode value) (.done ())

/-- Read the cell, compute a new value and write it if the cell has not changed
meanwhile. The result says which of the two happened to the new value. -/
def mutate (ref : StorageValueRef) (f : Option (Option T) → Except ε T) :
    Program Q A ε (Except T T) :=
  .get ref.key fun value =>
    match f (value.map Codec.decode) with
    | .error e => .fail e
    | .ok new =>
        .compareAndSet ref.key value (Codec.encode new) fun swapped =>
          .done (if swapped then .ok new else .error new)

end StorageValueRef

end AbcDemo.Foundation
