import Mathlib.Init

/-! # Fallible state transformers that keep their writes

A `Dispatch` reads and writes one state, may stop with an error and reports
observations in order. Unlike a transactional monad, stopping does not undo
the writes made before the stop: the outcome of a failed computation carries
the state it had reached. The simp set below executes straight-line programs
with guards down to nested conditionals over finished outcomes.
-/

namespace AbcDemo.Foundation

/-- What one computation ends with: its result, the state it leaves behind in
either case, and the observations it reported. -/
structure Outcome (σ ω ε α : Type) where
  result : Except ε α
  after : σ
  log : List ω

def Dispatch (σ ω ε α : Type) : Type := σ → Outcome σ ω ε α

variable {σ ω ε α β : Type}

/-- A success, as a predicate that does not name the returned value. -/
def Outcome.Succeeds (o : Outcome σ ω ε α) : Prop := o.result.isOk = true

instance (o : Outcome σ ω ε α) : Decidable o.Succeeds :=
  inferInstanceAs (Decidable (_ = true))

@[simp] theorem Outcome.succeeds_ok (a : α) (s : σ) (w : List ω) :
    (Outcome.mk (.ok a : Except ε α) s w).Succeeds := rfl

@[simp] theorem Outcome.not_succeeds_error (e : ε) (s : σ) (w : List ω) :
    ¬ (Outcome.mk (.error e : Except ε α) s w).Succeeds := by
  simp [Outcome.Succeeds, Except.isOk, Except.toBool]

def Outcome.prepend (w : List ω) (o : Outcome σ ω ε α) : Outcome σ ω ε α :=
  { o with log := w ++ o.log }

namespace Dispatch

def run (x : Dispatch σ ω ε α) (s : σ) : Outcome σ ω ε α := x s

/-- Continue after `o`. An error ends the computation in the state it reached. -/
def andThen (o : Outcome σ ω ε α) (f : α → Dispatch σ ω ε β) : Outcome σ ω ε β :=
  match o with
  | ⟨.ok a, s, w⟩ => ((f a).run s).prepend w
  | ⟨.error e, s, w⟩ => ⟨.error e, s, w⟩

instance : Monad (Dispatch σ ω ε) where
  pure a := fun s => ⟨.ok a, s, []⟩
  bind x f := fun s => andThen (x.run s) f

/-! ## Primitives -/

def query (f : σ → α) : Dispatch σ ω ε α := fun s => ⟨.ok (f s), s, []⟩

def update (f : σ → σ) : Dispatch σ ω ε Unit := fun s => ⟨.ok (), f s, []⟩

def reject (e : ε) : Dispatch σ ω ε α := fun s => ⟨.error e, s, []⟩

def ensure (c : Prop) [Decidable c] (e : ε) : Dispatch σ ω ε Unit :=
  if c then pure () else reject e

def emit (w : ω) : Dispatch σ ω ε Unit := fun s => ⟨.ok (), s, [w]⟩

/-- A pure fallible value, stopping on its error. -/
def lift : Except ε α → Dispatch σ ω ε α
  | .ok a => pure a
  | .error e => reject e

/-! ## Execution rules -/

@[simp] theorem prepend_nil (o : Outcome σ ω ε α) : o.prepend [] = o := rfl

@[simp] theorem prepend_mk (v w : List ω) (r : Except ε α) (s : σ) :
    (Outcome.mk r s w).prepend v = ⟨r, s, v ++ w⟩ := rfl

@[simp] theorem result_prepend (w : List ω) (o : Outcome σ ω ε α) :
    (o.prepend w).result = o.result := rfl

@[simp] theorem after_prepend (w : List ω) (o : Outcome σ ω ε α) :
    (o.prepend w).after = o.after := rfl

@[simp] theorem log_prepend (w : List ω) (o : Outcome σ ω ε α) :
    (o.prepend w).log = w ++ o.log := rfl

@[simp] theorem andThen_ok (a : α) (s : σ) (w : List ω) (f : α → Dispatch σ ω ε β) :
    andThen ⟨.ok a, s, w⟩ f = ((f a).run s).prepend w := rfl

@[simp] theorem andThen_error (e : ε) (s : σ) (w : List ω) (f : α → Dispatch σ ω ε β) :
    andThen ⟨.error e, s, w⟩ f = ⟨.error e, s, w⟩ := rfl

@[simp] theorem andThen_prepend (w : List ω) (o : Outcome σ ω ε α) (f : α → Dispatch σ ω ε β) :
    andThen (o.prepend w) f = (andThen o f).prepend w := by
  rcases o with ⟨e | a, s, v⟩ <;> simp [Outcome.prepend]

@[simp] theorem run_pure (a : α) (s : σ) :
    (pure a : Dispatch σ ω ε α).run s = ⟨.ok a, s, []⟩ := rfl

@[simp] theorem run_bind (x : Dispatch σ ω ε α) (f : α → Dispatch σ ω ε β) (s : σ) :
    (x >>= f).run s = andThen (x.run s) f := rfl

@[simp] theorem run_query (f : σ → α) (s : σ) :
    (query f : Dispatch σ ω ε α).run s = ⟨.ok (f s), s, []⟩ := rfl

@[simp] theorem run_update (f : σ → σ) (s : σ) :
    (update f : Dispatch σ ω ε Unit).run s = ⟨.ok (), f s, []⟩ := rfl

@[simp] theorem run_reject (e : ε) (s : σ) :
    (reject e : Dispatch σ ω ε α).run s = ⟨.error e, s, []⟩ := rfl

@[simp] theorem run_emit (w : ω) (s : σ) :
    (emit w : Dispatch σ ω ε Unit).run s = ⟨.ok (), s, [w]⟩ := rfl

@[simp] theorem run_ensure (c : Prop) [Decidable c] (e : ε) (s : σ) :
    (ensure c e : Dispatch σ ω ε Unit).run s =
      if c then ⟨.ok (), s, []⟩ else ⟨.error e, s, []⟩ := by
  unfold ensure
  split <;> rfl

@[simp] theorem run_lift_ok (a : α) (s : σ) :
    (lift (.ok a) : Dispatch σ ω ε α).run s = ⟨.ok a, s, []⟩ := rfl

@[simp] theorem run_lift_error (e : ε) (s : σ) :
    (lift (.error e) : Dispatch σ ω ε α).run s = ⟨.error e, s, []⟩ := rfl

@[simp] theorem run_ite (c : Prop) [Decidable c] (x y : Dispatch σ ω ε α) (s : σ) :
    (if c then x else y).run s = if c then x.run s else y.run s := by
  split <;> rfl

@[simp] theorem andThen_ite (c : Prop) [Decidable c] (o o' : Outcome σ ω ε α)
    (f : α → Dispatch σ ω ε β) :
    andThen (if c then o else o') f = if c then andThen o f else andThen o' f := by
  split <;> rfl

@[simp] theorem prepend_ite (c : Prop) [Decidable c] (o o' : Outcome σ ω ε α) (w : List ω) :
    (if c then o else o').prepend w = if c then o.prepend w else o'.prepend w := by
  split <;> rfl

/-- A loop of guards stops at the first element that fails and writes nothing. -/
@[simp] theorem run_forM_ensure (p : α → Prop) [DecidablePred p] (e : ε) (xs : List α) (s : σ) :
    (forM xs fun a => (ensure (p a) e : Dispatch σ ω ε Unit)).run s =
      if ∀ a ∈ xs, p a then ⟨.ok (), s, []⟩ else ⟨.error e, s, []⟩ := by
  induction xs with
  | nil => simp
  | cons a xs ih => by_cases ha : p a <;> simp [ha, ih]

/-- A loop of reports reports them in order and writes nothing. -/
@[simp] theorem run_forM_emit (f : α → ω) (xs : List α) (s : σ) :
    (forM xs fun a => (emit (f a) : Dispatch σ ω ε Unit)).run s = ⟨.ok (), s, xs.map f⟩ := by
  induction xs with
  | nil => rfl
  | cons a xs ih => simp [ih]

/-! ## What a failing program reports -/

section Reports

variable (p : ω → Prop)

/-- Whatever happens, `x` reports nothing of kind `p`. -/
def Mute (x : Dispatch σ ω ε α) : Prop := ∀ s, ∀ w ∈ (x.run s).log, ¬ p w

/-- Whenever it stops with an error, `x` has reported nothing of kind `p`. -/
def MuteOnError (x : Dispatch σ ω ε α) : Prop :=
  ∀ s, ¬ (x.run s).Succeeds → ∀ w ∈ (x.run s).log, ¬ p w

variable {p}

theorem Mute.onError {x : Dispatch σ ω ε α} (h : Mute p x) : MuteOnError p x :=
  fun s _ => h s

theorem mute_pure (a : α) : Mute p (pure a : Dispatch σ ω ε α) := by
  simp [Mute]

theorem mute_query (f : σ → α) : Mute p (query f : Dispatch σ ω ε α) := by
  simp [Mute]

theorem mute_update (f : σ → σ) : Mute p (update f : Dispatch σ ω ε Unit) := by
  simp [Mute]

theorem mute_reject (e : ε) : Mute p (reject e : Dispatch σ ω ε α) := by
  simp [Mute]

theorem mute_ensure (c : Prop) [Decidable c] (e : ε) :
    Mute p (ensure c e : Dispatch σ ω ε Unit) := by
  intro s
  by_cases hc : c <;> simp [hc]

theorem muteOnError_emit (w : ω) : MuteOnError p (emit w : Dispatch σ ω ε Unit) := by
  intro s failed
  simp at failed

/-- An early error ends the program, so the rest matters only for what it adds. -/
theorem MuteOnError.bind {x : Dispatch σ ω ε α} {f : α → Dispatch σ ω ε β} (hx : Mute p x)
    (hf : ∀ a, MuteOnError p (f a)) : MuteOnError p (x >>= f) := by
  intro s failed w hw
  rw [run_bind] at failed hw
  have early := hx s
  rcases hrun : x.run s with ⟨result, s', v⟩
  rw [hrun] at failed hw early
  cases result with
  | error e => exact early w hw
  | ok a =>
      rcases List.mem_append.mp hw with hw | hw
      · exact early w hw
      · exact hf a s' failed w hw

theorem Mute.bind {x : Dispatch σ ω ε α} {f : α → Dispatch σ ω ε β} (hx : Mute p x)
    (hf : ∀ a, Mute p (f a)) : Mute p (x >>= f) := by
  intro s w hw
  rw [run_bind] at hw
  have early := hx s
  rcases hrun : x.run s with ⟨result, s', v⟩
  rw [hrun] at hw early
  cases result with
  | error e => exact early w hw
  | ok a =>
      rcases List.mem_append.mp hw with hw | hw
      · exact early w hw
      · exact hf a s' w hw

theorem mute_forM (f : α → Dispatch σ ω ε Unit) (hf : ∀ a, Mute p (f a)) (xs : List α) :
    Mute p (forM xs f) := by
  induction xs with
  | nil => exact mute_pure ()
  | cons a xs ih => exact (hf a).bind fun _ => ih

end Reports

end Dispatch

end AbcDemo.Foundation
