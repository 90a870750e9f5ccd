import Mathlib.Data.Set.Insert
import AbcDemo.Foundation.Interleaving
import AbcDemo.Foundation.Uninterrupted

/-! # What programs over a shared storage may ask

A policy says what may be asked on the evidence of what was answered and what
was met in the storage, and which contents of the storage the evidence vouches
for. Whether a program keeps a policy is a weakest precondition by recursion on
the program: a read returns what any vouched storage holds, because the other
workers may have come in between, and adds that to the evidence as an answer
does. The rule at the end gives from the programs alone that the policy is kept
however they interleave.
-/

namespace AbcDemo.Foundation

variable {W Op Q Q' : Type} {A : Q → Type} {A' : Q' → Type} {ε ε' α β : Type}

/-! ## Programs in terms of other programs -/

namespace Program

/-- Replace every request by a program that obtains its answer. -/
def translate (handler : ∀ q, Program Q' A' ε' (A q)) (onError : ε → ε') :
    Program Q A ε α → Program Q' A' ε' α
  | .done a => .done a
  | .fail e => .fail (onError e)
  | .get key next => .get key fun value => translate handler onError (next value)
  | .set key value next => .set key value (translate handler onError next)
  | .compareAndSet key old new next =>
      .compareAndSet key old new fun swapped => translate handler onError (next swapped)
  | .ask q next => handler q >>= fun answer => translate handler onError (next answer)

/-- A value, or a stop on an error. -/
def ofExcept : Except ε α → Program Q A ε α
  | .ok a => .done a
  | .error e => .fail e

variable (handler : ∀ q, Program Q' A' ε' (A q)) (onError : ε → ε')

@[simp] theorem translate_done (a : α) :
    (done a : Program Q A ε α).translate handler onError = .done a := rfl

@[simp] theorem translate_fail (e : ε) :
    (fail e : Program Q A ε α).translate handler onError = .fail (onError e) := rfl

@[simp] theorem translate_request (q : Q) :
    (request q : Program Q A ε (A q)).translate handler onError = handler q :=
  bind_done (handler q)

theorem translate_bind (x : Program Q A ε α) (f : α → Program Q A ε β) :
    (x >>= f).translate handler onError =
      x.translate handler onError >>= fun a => (f a).translate handler onError := by
  induction x with
  | done a => rfl
  | fail e => rfl
  | get key next ih => exact congrArg (get key) (funext ih)
  | set key value next ih => exact congrArg (set key value) ih
  | compareAndSet key old new next ih => exact congrArg (compareAndSet key old new) (funext ih)
  | ask q next ih =>
      simp only [ask_bind, translate, bind_assoc]
      exact congrArg (handler q >>= ·) (funext ih)

theorem translate_attempt {ε₁ ε₂ : Type} (f : ∀ q, A q) (onError : ε₁ → ε₂)
    (x : Program Q A ε α) :
    (x.attempt : Program Q A ε₁ (Except ε α)).translate
        (fun q => (pure (f q) : Program Q' A' ε₂ (A q))) onError =
      (x.translate (fun q => (pure (f q) : Program Q' A' ε (A q))) id).attempt := by
  induction x with
  | done a => rfl
  | fail e => rfl
  | get key next ih => exact congrArg (get key) (funext ih)
  | set key value next ih => exact congrArg (set key value) ih
  | compareAndSet key old new next ih => exact congrArg (compareAndSet key old new) (funext ih)
  | ask q next ih => exact ih (f q)

theorem translate_forM (f : β → Program Q A ε Unit) (xs : List β) :
    (forM xs f).translate handler onError = forM xs fun b => (f b).translate handler onError := by
  induction xs with
  | nil => rfl
  | cons b xs ih => rw [List.forM_cons, List.forM_cons, translate_bind, ih]

end Program

/-! ## Policies -/

/-- A request of an operation and what the outside world answered. -/
structure Exchange (Op Q : Type) (A : Q → Type) where
  op : Op
  request : Q
  answer : A request

/-- What a worker meets in the storage: the value that a cell has when it is read, or that a
cell to be swapped has changed since. -/
inductive Sight where
  | read (key : Bytes) (value : Option Bytes)
  | changed (key : Bytes)

/-- What is learned in the course of an operation. -/
inductive Notice (Op Q : Type) (A : Q → Type) where
  | answered (e : Exchange Op Q A)
  | saw (op : Op) (sight : Sight)

def Notice.op : Notice Op Q A → Op
  | .answered e => e.op
  | .saw op _ => op

/-- More evidence is never worse. -/
structure Policy (Op Q : Type) (A : Q → Type) where
  May : Op → Set (Notice Op Q A) → Q → Prop
  Sound : LocalStorage → Set (Notice Op Q A) → Prop
  may_mono : ∀ {op E E' q}, E ⊆ E' → May op E q → May op E' q
  sound_mono : ∀ {store E E'}, E ⊆ E' → Sound store E → Sound store E'

namespace Policy

variable (P : Policy Op Q A) (op : Op)

/-- From this evidence on, the program asks only what it may and leaves every
vouched storage vouched; it ends with a value and `post`, or with an error and `stop`. -/
def Keeps (post : α → Set (Notice Op Q A) → Prop) (stop : ε → Set (Notice Op Q A) → Prop) :
    Program Q A ε α → Set (Notice Op Q A) → Prop
  | .done a, E => post a E
  | .fail e, E => stop e E
  | .get key next, E =>
      ∀ store E', E ⊆ E' → P.Sound store E' → .saw op (.read key (store.find key)) ∈ E' →
        Keeps post stop (next (store.find key)) E'
  | .set key value next, E =>
      (∀ store E', E ⊆ E' → P.Sound store E' → P.Sound (store.insert key value) E') ∧
        Keeps post stop next E
  | .compareAndSet key old new next, E =>
      (∀ store E', E ⊆ E' → P.Sound store E' → store.find key = old →
        P.Sound (store.insert key new) E') ∧
        ∀ swapped E', E ⊆ E' → (swapped = false → .saw op (.changed key) ∈ E') →
          Keeps post stop (next swapped) E'
  | .ask q next, E =>
      P.May op E q ∧
        ∀ answer E', E ⊆ E' → .answered ⟨op, q, answer⟩ ∈ E' → Keeps post stop (next answer) E'

variable {P op} {post post' : α → Set (Notice Op Q A) → Prop}
  {stop stop' : ε → Set (Notice Op Q A) → Prop} {E E' : Set (Notice Op Q A)}

/-- A weaker end, which may rely on what the evidence was at the beginning. -/
theorem Keeps.weaken {x : Program Q A ε α} (h : P.Keeps op post stop x E)
    (value : ∀ a E', E ⊆ E' → post a E' → post' a E')
    (error : ∀ e E', E ⊆ E' → stop e E' → stop' e E') : P.Keeps op post' stop' x E := by
  induction x generalizing E with
  | done a => exact value a E subset_rfl h
  | fail e => exact error e E subset_rfl h
  | get key next ih =>
      intro store E' grown sound seen
      exact ih _ (h store E' grown sound seen) (fun a E'' later => value a E'' (grown.trans later))
        fun e E'' later => error e E'' (grown.trans later)
  | set key value' next ih => exact ⟨h.1, ih h.2 value error⟩
  | compareAndSet key old new next ih =>
      refine ⟨h.1, fun swapped E' grown seen => ?_⟩
      exact ih swapped (h.2 swapped E' grown seen)
        (fun a E'' later => value a E'' (grown.trans later))
        fun e E'' later => error e E'' (grown.trans later)
  | ask q next ih =>
      refine ⟨h.1, fun answer E' grown answered => ?_⟩
      exact ih _ (h.2 answer E' grown answered) (fun a E'' later => value a E'' (grown.trans later))
        fun e E'' later => error e E'' (grown.trans later)

/-- What others learn meanwhile does no harm. -/
theorem Keeps.mono {x : Program Q A ε α} (h : P.Keeps op post stop x E) (grown : E ⊆ E')
    (value : ∀ a {F F'}, F ⊆ F' → post a F → post a F')
    (error : ∀ e {F F'}, F ⊆ F' → stop e F → stop e F') : P.Keeps op post stop x E' := by
  induction x generalizing E E' with
  | done a => exact value a grown h
  | fail e => exact error e grown h
  | get key next ih => exact fun store E'' later => h store E'' (grown.trans later)
  | set key value' next ih =>
      exact ⟨fun store E'' later => h.1 store E'' (grown.trans later), ih h.2 grown⟩
  | compareAndSet key old new next ih =>
      exact ⟨fun store E'' later => h.1 store E'' (grown.trans later),
        fun swapped E'' later => h.2 swapped E'' (grown.trans later)⟩
  | ask q next ih =>
      exact ⟨P.may_mono grown h.1, fun answer E'' later => h.2 answer E'' (grown.trans later)⟩

theorem keeps_bind {x : Program Q A ε α} {f : α → Program Q A ε β}
    {post : β → Set (Notice Op Q A) → Prop} :
    P.Keeps op post stop (x >>= f) E ↔
      P.Keeps op (fun a => P.Keeps op post stop (f a)) stop x E := by
  induction x generalizing E with
  | done a => rfl
  | fail e => rfl
  | get key next ih =>
      exact forall_congr' fun store => forall_congr' fun E' => forall_congr' fun _ =>
        forall_congr' fun _ => forall_congr' fun _ => ih _
  | set key value next ih => exact and_congr_right fun _ => ih
  | compareAndSet key old new next ih =>
      exact and_congr_right fun _ => forall_congr' fun swapped => forall_congr' fun E' =>
        forall_congr' fun _ => forall_congr' fun _ => ih swapped
  | ask q next ih =>
      exact and_congr_right fun _ => forall_congr' fun answer => forall_congr' fun E' =>
        forall_congr' fun _ => forall_congr' fun _ => ih answer

theorem keeps_request {q : Q} (may : P.May op E q) :
    P.Keeps op (fun answer E' => .answered ⟨op, q, answer⟩ ∈ E') stop
      (.request q : Program Q A ε (A q)) E :=
  ⟨may, fun _ _ _ answered => answered⟩

/-- First `x`, then whatever `f` makes of its value. -/
theorem Keeps.bind {x : Program Q A ε α} {f : α → Program Q A ε β}
    {post : β → Set (Notice Op Q A) → Prop} {mid : α → Set (Notice Op Q A) → Prop}
    (hx : P.Keeps op mid stop x E)
    (hf : ∀ a E', E ⊆ E' → mid a E' → P.Keeps op post stop (f a) E') :
    P.Keeps op post stop (x >>= f) E :=
  keeps_bind.mpr (hx.weaken hf fun _ _ _ stopped => stopped)

/-- Whatever the value is. -/
theorem Keeps.andThen {x : Program Q A ε α} {f : α → Program Q A ε β}
    {post : β → Set (Notice Op Q A) → Prop} (hx : P.Keeps op (fun _ _ => True) stop x E)
    (hf : ∀ a E', E ⊆ E' → P.Keeps op post stop (f a) E') :
    P.Keeps op post stop (x >>= f) E :=
  hx.bind fun a E' grown _ => hf a E' grown

/-- What is known of a value, or else of an error. -/
def Either (post : α → Set (Notice Op Q A) → Prop) (stop : ε → Set (Notice Op Q A) → Prop) :
    Except ε α → Set (Notice Op Q A) → Prop
  | .ok a => post a
  | .error e => stop e

/-- An attempt ends either way, and with a value. -/
theorem Keeps.attempt {x : Program Q A ε α} {stop' : ε' → Set (Notice Op Q A) → Prop}
    (hx : P.Keeps op post stop x E) :
    P.Keeps op (Either post stop) stop' (x.attempt : Program Q A ε' (Except ε α)) E := by
  induction x generalizing E with
  | done a => exact hx
  | fail e => exact hx
  | get key next ih => exact fun store E' grown sound seen => ih _ (hx store E' grown sound seen)
  | set key value next ih => exact ⟨hx.1, ih hx.2⟩
  | compareAndSet key old new next ih =>
      exact ⟨hx.1, fun swapped E' grown seen => ih swapped (hx.2 swapped E' grown seen)⟩
  | ask q next ih =>
      exact ⟨hx.1, fun answer E' grown answered => ih _ (hx.2 answer E' grown answered)⟩

theorem Keeps.discard {x : Program Q A ε α} {stop' : ε' → Set (Notice Op Q A) → Prop}
    (hx : P.Keeps op post stop x E) :
    P.Keeps op (fun _ _ => True) stop' (x.discard : Program Q A ε' Unit) E :=
  hx.attempt.bind fun _ _ _ _ => trivial

/-- A read returns what some vouched storage holds. -/
theorem keeps_get {T : Type} [Codec T] {ref : StorageValueRef}
    {f : Option (Option T) → Program Q' A' ε' α} {handler : ∀ q, Program Q A ε (A' q)}
    {onError : ε' → ε}
    (hf : ∀ store E', E ⊆ E' → P.Sound store E' →
      .saw op (.read ref.key (store.find ref.key)) ∈ E' →
      P.Keeps op post stop
        ((f ((store.find ref.key).map Codec.decode)).translate handler onError) E') :
    P.Keeps op post stop ((ref.get T >>= f).translate handler onError) E :=
  hf

/-- Rounds that each keep the policy on any later evidence. -/
theorem keeps_forM {f : β → Program Q A ε Unit} {xs : List β}
    (hf : ∀ b ∈ xs, ∀ E', E ⊆ E' → P.Keeps op (fun _ _ => True) stop (f b) E') :
    P.Keeps op (fun _ _ => True) stop (forM xs f) E := by
  induction xs generalizing E with
  | nil => trivial
  | cons b xs ih =>
      rw [List.forM_cons]
      apply (hf b (by simp) E subset_rfl).andThen
      intro _ E' grown
      exact ih fun b' hb' E'' later => hf b' (by simp [hb']) E'' (grown.trans later)

end Policy

/-! ## Interleavings -/

/-- What a turn asks and is answered, if it asks at all. -/
def exchange (n : Node W Op Q A ε) : Turn W Op Q A → Option (Exchange Op Q A)
  | .begin _ _ => none
  | .go w world =>
      match n.running w with
      | some (op, .ask q _) => some ⟨op, q, world q⟩
      | _ => none

/-- What the next access learns, be it from outside or from the storage. -/
def Program.learns (op : Op) (world : ∀ q, A q) (store : LocalStorage) :
    Program Q A ε α → Option (Notice Op Q A)
  | .get key _ => some (.saw op (.read key (store.find key)))
  | .compareAndSet key old _ _ =>
      if store.find key = old then none else some (.saw op (.changed key))
  | .ask q _ => some (.answered ⟨op, q, world q⟩)
  | _ => none

/-- What a turn learns. -/
def notice (n : Node W Op Q A ε) : Turn W Op Q A → Option (Notice Op Q A)
  | .begin _ _ => none
  | .go w world => (n.running w).bind fun slot => slot.2.learns slot.1 world n.store

theorem notice_go {n : Node W Op Q A ε} {w : W} {op : Op} {p : Program Q A ε Unit}
    (busy : n.running w = some (op, p)) (world : ∀ q, A q) :
    notice n (.go w world) = p.learns op world n.store := by
  simp [notice, busy]

theorem notice_eq_answered {n : Node W Op Q A ε} {t : Turn W Op Q A} {e : Exchange Op Q A} :
    notice n t = some (.answered e) ↔ exchange n t = some e := by
  cases t with
  | begin w op => simp [notice, exchange]
  | go w world =>
      cases busy : n.running w with
      | none => simp [notice, exchange, busy]
      | some slot =>
          obtain ⟨op, p⟩ := slot
          rw [notice_go busy]
          simp only [exchange, busy]
          cases p with
          | compareAndSet key old new next =>
              simp only [Program.learns]
              split <;> simp
          | _ => simp [Program.learns]

/-- Only an operation that is being done learns anything. -/
theorem running_of_notice {n : Node W Op Q A ε} {t : Turn W Op Q A} {x : Notice Op Q A}
    (h : notice n t = some x) : ∃ w p, n.running w = some (x.op, p) := by
  cases t with
  | begin w op => cases h
  | go w world =>
      obtain ⟨⟨op, p⟩, busy, learned⟩ := Option.bind_eq_some_iff.mp h
      have same : x.op = op := by
        cases p with
        | get key next =>
            cases learned
            rfl
        | compareAndSet key old new next =>
            simp only [Program.learns] at learned
            split at learned <;> cases learned
            rfl
        | ask q next =>
            cases learned
            rfl
        | _ => cases learned
      exact ⟨w, p, same ▸ busy⟩

/-- What is being done after a turn was being done before or has just begun. -/
theorem running_of_turn [DecidableEq W] {program : Op → Program Q A ε Unit}
    {n : Node W Op Q A ε} {t : Turn W Op Q A} {w : W} {op : Op} {p : Program Q A ε Unit}
    (busy : (fire (turn program) n t).after.running w = some (op, p)) :
    (∃ p', n.running w = some (op, p')) ∨ ∃ w', t = .begin w' op := by
  cases t with
  | begin w' op' =>
      by_cases idle : n.idle w' = true
      · simp only [fire, Transition.after, run_turn_begin, idle, ↓reduceIte] at busy
        rcases Node.running_resume busy with ⟨_, rfl, _⟩ | ⟨_, before⟩
        · exact .inr ⟨w', rfl⟩
        · exact .inl ⟨p, before⟩
      · simp only [fire, Transition.after, run_turn_begin, idle] at busy
        exact .inl ⟨p, busy⟩
  | go w' world =>
      cases before : n.running w' with
      | none =>
          simp only [fire, Transition.after, run_turn_go_idle program before world] at busy
          exact .inl ⟨p, busy⟩
      | some slot =>
          obtain ⟨op', p'⟩ := slot
          simp only [fire, Transition.after, run_turn_go program before world, Node.advance] at busy
          rcases Node.running_resume busy with ⟨rfl, rfl, _⟩ | ⟨_, before'⟩
          · exact .inl ⟨p', before⟩
          · exact .inl ⟨p, before'⟩

/-- The evidence vouches for the storage and for whatever is being done. -/
structure Vouched (P : Policy Op Q A) (n : Node W Op Q A ε) (E : Set (Notice Op Q A)) :
    Prop where
  sound : P.Sound n.store E
  keeps : ∀ w op p, n.running w = some (op, p) →
    P.Keeps op (fun _ _ => True) (fun _ _ => True) p E

section Turns

variable {P : Policy Op Q A} {n : Node W Op Q A ε} {E E' : Set (Notice Op Q A)}

theorem Vouched.start {store : LocalStorage} (sound : P.Sound store E) :
    Vouched P (Node.start store : Node W Op Q A ε) E where
  sound := sound
  keeps w op p busy := by simp [Node.start] at busy

theorem Vouched.mono (h : Vouched P n E) (grown : E ⊆ E') : Vouched P n E' where
  sound := P.sound_mono grown h.sound
  keeps w op p busy :=
    (h.keeps w op p busy).mono grown (fun _ _ _ _ _ => trivial) fun _ _ _ _ _ => trivial

variable [DecidableEq W]

/-- A worker that goes on with a program that keeps the policy. -/
theorem Vouched.resume (h : Vouched P n E) {store : LocalStorage} (sound : P.Sound store E) {w : W}
    {op : Op} {p : Program Q A ε Unit}
    (keeps : P.Keeps op (fun _ _ => True) (fun _ _ => True) p E) :
    Vouched P ({ n with store := store }.resume w op p) E where
  sound := sound
  keeps w' op' p' busy := by
    rcases Node.running_resume busy with ⟨_, rfl, rfl⟩ | ⟨_, busy⟩
    · exact keeps
    · exact h.keeps w' op' p' busy

/-- A worker that goes on with what it has learned. -/
theorem Vouched.learn (h : Vouched P n E) (grown : E ⊆ E') {w : W} {op : Op}
    {p : Program Q A ε Unit} (keeps : P.Keeps op (fun _ _ => True) (fun _ _ => True) p E') :
    Vouched P (n.resume w op p) E' :=
  (h.mono grown).resume (P.sound_mono grown h.sound) keeps

variable {program : Op → Program Q A ε Unit}

/-- One access adds what it learns to the evidence. -/
theorem Vouched.advance (h : Vouched P n E) {w : W} {op : Op} {p : Program Q A ε Unit}
    (busy : n.running w = some (op, p)) (world : ∀ q, A q) :
    Vouched P (n.advance w op p world) (E ∪ {e | notice n (.go w world) = some e}) := by
  have keeps := h.keeps w op p busy
  have grown : E ⊆ E ∪ {e | notice n (.go w world) = some e} := Set.subset_union_left
  rw [notice_go busy] at grown ⊢
  cases p with
  | done a => exact h.learn grown trivial
  | fail e => exact h.learn grown trivial
  | get key next =>
      have sound := P.sound_mono grown h.sound
      exact h.learn grown (keeps n.store _ grown sound (.inr rfl))
  | set key value next =>
      exact (h.resume (keeps.1 n.store E subset_rfl h.sound) keeps.2).mono grown
  | compareAndSet key old new next =>
      simp only [Node.advance, Program.advance, Program.learns] at grown ⊢
      by_cases same : n.store.find key = old
      · simp only [if_pos same] at grown ⊢
        have sound := keeps.1 n.store E subset_rfl h.sound same
        exact (h.resume sound (keeps.2 true E subset_rfl Bool.noConfusion)).mono grown
      · simp only [if_neg same] at grown ⊢
        exact h.learn grown (keeps.2 false _ grown fun _ => .inr rfl)
  | ask q next => exact h.learn grown (keeps.2 (world q) _ grown (.inr rfl))

/-- One turn asks what it may and adds what it learns to the evidence. -/
theorem Vouched.turn (h : Vouched P n E)
    (obeys : ∀ op, P.Keeps op (fun _ _ => True) (fun _ _ => True) (program op) ∅)
    (t : Turn W Op Q A) :
    (∀ e, exchange n t = some e → P.May e.op E e.request) ∧
      Vouched P (fire (turn program) n t).after (E ∪ {e | notice n t = some e}) := by
  cases t with
  | begin w op =>
      refine ⟨by simp [exchange], ?_⟩
      have keeps := (obeys op).mono (Set.empty_subset E) (fun _ _ _ _ _ => trivial)
        fun _ _ _ _ _ => trivial
      apply Vouched.mono _ Set.subset_union_left
      by_cases idle : n.idle w = true
      · simpa [fire, Transition.after, idle] using h.resume h.sound keeps
      · simpa [fire, Transition.after, idle] using h
  | go w world =>
      cases busy : n.running w with
      | none =>
          refine ⟨by simp [exchange, busy], ?_⟩
          simpa [fire, Transition.after, run_turn_go_idle program busy world] using
            h.mono Set.subset_union_left
      | some slot =>
          obtain ⟨op, p⟩ := slot
          constructor
          · intro e he
            simp only [exchange, busy] at he
            cases p with
            | ask q next =>
                cases he
                exact (h.keeps w op _ busy).1
            | _ => cases he
          · simpa only [fire, Transition.after, run_turn_go program busy world] using
              h.advance busy world

end Turns

end AbcDemo.Foundation
