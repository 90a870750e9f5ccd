import Mathlib.Logic.Function.Basic
import AbcDemo.Foundation.Execution
import AbcDemo.Foundation.LocalStorage

/-! # Interleaved workers over one local storage

Any number of workers share one local storage. Each runs one operation after
another, and a schedule decides whose turn it is after every single access.
What a schedule did is kept as a history of writes and requests, each under the
worker and the operation it came from.
-/

namespace AbcDemo.Foundation

/-- What an access or a request leaves behind. -/
inductive Access (Q : Type) where
  | wrote (key value : Bytes)
  | swapped (key value : Bytes)
  | asked (q : Q)

structure LogEntry (W Op Q : Type) where
  worker : W
  op : Op
  access : Access Q

/-- The workers of a node and the operation each one is in. -/
structure Node (W Op Q : Type) (A : Q → Type) (ε : Type) where
  store : LocalStorage
  running : W → Option (Op × Program Q A ε Unit)

/-- Worker `w` begins an operation, or takes one turn in the one it is in. The
outside world is given by what it would answer at that moment. -/
inductive Turn (W Op Q : Type) (A : Q → Type) where
  | begin (w : W) (op : Op)
  | go (w : W) (world : ∀ q, A q)

variable {W Op Q : Type} {A : Q → Type} {ε : Type}

/-- One atomic access. -/
def Program.advance (world : ∀ q, A q) (store : LocalStorage) :
    Program Q A ε Unit → Program Q A ε Unit × LocalStorage × Option (Access Q)
  | .done a => (.done a, store, none)
  | .fail e => (.fail e, store, none)
  | .get key next => (next (store.find key), store, none)
  | .set key value next => (next, store.insert key value, some (.wrote key value))
  | .compareAndSet key old new next =>
      if store.find key = old then (next true, store.insert key new, some (.swapped key new))
      else (next false, store, none)
  | .ask q next => (next (world q), store, some (.asked q))

def Program.stopped : Program Q A ε Unit → Bool
  | .done _ | .fail _ => true
  | _ => false

namespace Node

/-- No worker has begun anything. -/
def start (store : LocalStorage) : Node W Op Q A ε := ⟨store, fun _ => none⟩

def idle (n : Node W Op Q A ε) (w : W) : Bool :=
  match n.running w with
  | some (_, p) => p.stopped
  | none => true

variable [DecidableEq W]

def resume (n : Node W Op Q A ε) (w : W) (op : Op) (p : Program Q A ε Unit) :
    Node W Op Q A ε :=
  { n with running := Function.update n.running w (some (op, p)) }

/-- One turn of a worker that is in `op`, with `p` left to do. -/
def advance (n : Node W Op Q A ε) (w : W) (op : Op) (p : Program Q A ε Unit)
    (world : ∀ q, A q) : Node W Op Q A ε :=
  { n with store := (p.advance world n.store).2.1 }.resume w op (p.advance world n.store).1

@[simp] theorem resume_store (n : Node W Op Q A ε) (w : W) (op : Op) (p : Program Q A ε Unit) :
    (n.resume w op p).store = n.store := rfl

@[simp] theorem resume_running_self (n : Node W Op Q A ε) (w : W) (op : Op)
    (p : Program Q A ε Unit) : (n.resume w op p).running w = some (op, p) :=
  Function.update_self ..

@[simp] theorem resume_running_other (n : Node W Op Q A ε) {w w' : W} (hne : w' ≠ w) (op : Op)
    (p : Program Q A ε Unit) : (n.resume w op p).running w' = n.running w' :=
  Function.update_of_ne hne ..

/-- What a worker is in after `w` has moved on. -/
theorem running_resume {n : Node W Op Q A ε} {w w' : W} {op op' : Op} {p p' : Program Q A ε Unit}
    (busy : (n.resume w op p).running w' = some (op', p')) :
    (w' = w ∧ op' = op ∧ p' = p) ∨ (w' ≠ w ∧ n.running w' = some (op', p')) := by
  by_cases hw : w' = w
  · subst hw
    rw [resume_running_self] at busy
    cases busy
    exact .inl ⟨rfl, rfl, rfl⟩
  · rw [resume_running_other n hw] at busy
    exact .inr ⟨hw, busy⟩

end Node

section Turns

variable [DecidableEq W] (program : Op → Program Q A ε Unit)

/-- A worker that is still busy begins nothing, and an idle one has no turn. -/
def turn : Turn W Op Q A → Dispatch (Node W Op Q A ε) (LogEntry W Op Q) Empty Unit
  | .begin w op => Dispatch.update fun n => if n.idle w then n.resume w op (program op) else n
  | .go w world => fun n =>
      match n.running w with
      | none => ⟨.ok (), n, []⟩
      | some (op, p) =>
          ⟨.ok (), n.advance w op p world,
            (p.advance world n.store).2.2.toList.map fun e => ⟨w, op, e⟩⟩

@[simp] theorem run_turn_begin (n : Node W Op Q A ε) (w : W) (op : Op) :
    (turn program (.begin w op)).run n =
      ⟨.ok (), if n.idle w then n.resume w op (program op) else n, []⟩ := rfl

theorem run_turn_go_idle {n : Node W Op Q A ε} {w : W} (idle : n.running w = none)
    (world : ∀ q, A q) : (turn program (.go w world)).run n = ⟨.ok (), n, []⟩ := by
  simp [turn, Dispatch.run, idle]

theorem run_turn_go {n : Node W Op Q A ε} {w : W} {op : Op} {p : Program Q A ε Unit}
    (busy : n.running w = some (op, p)) (world : ∀ q, A q) :
    (turn program (.go w world)).run n =
      ⟨.ok (), n.advance w op p world,
        (p.advance world n.store).2.2.toList.map fun e => ⟨w, op, e⟩⟩ := by
  simp [turn, Dispatch.run, busy]

/-- Everything a schedule did, in order. -/
def history (n : Node W Op Q A ε) (turns : List (Turn W Op Q A)) : List (LogEntry W Op Q) :=
  (exec (turn program) n turns).transitions.flatMap (·.outcome.log)

end Turns

end AbcDemo.Foundation
