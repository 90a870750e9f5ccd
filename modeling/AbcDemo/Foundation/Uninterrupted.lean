import AbcDemo.Foundation.Interleaving

/-! # Uninterrupted programs

A program that nobody comes between is a state transformer over the local
storage and the world outside, which answers the requests and may change with
every answer. It changes no cell but those it writes, and what it comes to is
what a worker comes to who is given one turn after another.
-/

namespace AbcDemo.Foundation

variable {Q World : Type} {A : Q → Type} {ε ε' α β : Type}

namespace Program

def alone (respond : ∀ q, World → A q × World) :
    Program Q A ε α → Dispatch (LocalStorage × World) (Access Q) ε α
  | .done a => pure a
  | .fail e => Dispatch.reject e
  | .get key next => do
      let value ← Dispatch.query (·.1.find key)
      alone respond (next value)
  | .set key value next => do
      Dispatch.update fun s => (s.1.insert key value, s.2)
      Dispatch.emit (.wrote key value)
      alone respond next
  | .compareAndSet key old new next => do
      if (← Dispatch.query (·.1.find key)) = old then
        Dispatch.update fun s => (s.1.insert key new, s.2)
        Dispatch.emit (.swapped key new)
        alone respond (next true)
      else alone respond (next false)
  | .ask q next => do
      let answer ← Dispatch.query fun s => (respond q s.2).1
      Dispatch.update fun s => (s.1, (respond q s.2).2)
      Dispatch.emit (.asked q)
      alone respond (next answer)

/-- Go on with what the program ended with, be it a value or an error. -/
def attempt : Program Q A ε α → Program Q A ε' (Except ε α)
  | .done a => .done (.ok a)
  | .fail e => .done (.error e)
  | .get key next => .get key fun value => attempt (next value)
  | .set key value next => .set key value (attempt next)
  | .compareAndSet key old new next =>
      .compareAndSet key old new fun swapped => attempt (next swapped)
  | .ask q next => .ask q fun answer => attempt (next answer)

/-- Whatever the program ends with is of no interest. -/
def discard (x : Program Q A ε α) : Program Q A ε' Unit := do
  let _ ← x.attempt
  pure ()

/-! ## Execution rules -/

section Execution

variable (respond : ∀ q, World → A q × World)

@[simp] theorem run_alone_done (a : α) (s : LocalStorage × World) :
    ((done a : Program Q A ε α).alone respond).run s = ⟨.ok a, s, []⟩ := rfl

@[simp] theorem run_alone_fail (e : ε) (s : LocalStorage × World) :
    ((fail e : Program Q A ε α).alone respond).run s = ⟨.error e, s, []⟩ := rfl

@[simp] theorem run_alone_get (key : Bytes) (next : Option Bytes → Program Q A ε α)
    (s : LocalStorage × World) :
    ((get key next).alone respond).run s = ((next (s.1.find key)).alone respond).run s := rfl

@[simp] theorem run_alone_set (key value : Bytes) (next : Program Q A ε α)
    (s : LocalStorage × World) :
    ((set key value next).alone respond).run s =
      ((next.alone respond).run (s.1.insert key value, s.2)).prepend [.wrote key value] := rfl

@[simp] theorem run_alone_compareAndSet (key : Bytes) (old : Option Bytes) (new : Bytes)
    (next : Bool → Program Q A ε α) (s : LocalStorage × World) :
    ((compareAndSet key old new next).alone respond).run s =
      if s.1.find key = old then
        (((next true).alone respond).run (s.1.insert key new, s.2)).prepend [.swapped key new]
      else ((next false).alone respond).run s := by
  by_cases same : s.1.find key = old <;> simp [alone, same]

@[simp] theorem run_alone_ask (q : Q) (next : A q → Program Q A ε α) (s : LocalStorage × World) :
    ((ask q next).alone respond).run s =
      (((next (respond q s.2).1).alone respond).run (s.1, (respond q s.2).2)).prepend
        [.asked q] := rfl

theorem run_alone_bind (x : Program Q A ε α) (f : α → Program Q A ε β)
    (s : LocalStorage × World) :
    ((x >>= f).alone respond).run s =
      Dispatch.andThen ((x.alone respond).run s) fun a => (f a).alone respond := by
  induction x generalizing s with
  | done a => rfl
  | fail e => rfl
  | get key next ih => simp [ih]
  | set key value next ih => simp [ih]
  | compareAndSet key old new next ih =>
      by_cases same : s.1.find key = old <;> simp [same, ih]
  | ask q next ih => simp [ih]

@[simp] theorem run_alone_attempt (x : Program Q A ε α) (s : LocalStorage × World) :
    ((x.attempt : Program Q A ε' (Except ε α)).alone respond).run s =
      ⟨.ok ((x.alone respond).run s).result, ((x.alone respond).run s).after,
        ((x.alone respond).run s).log⟩ := by
  induction x generalizing s with
  | done a => rfl
  | fail e => rfl
  | get key next ih => simp [attempt, ih]
  | set key value next ih => simp [attempt, ih]
  | compareAndSet key old new next ih =>
      by_cases same : s.1.find key = old <;> simp [attempt, same, ih]
  | ask q next ih => simp [attempt, ih]

@[simp] theorem run_alone_discard (x : Program Q A ε α) (s : LocalStorage × World) :
    ((x.discard : Program Q A ε' Unit).alone respond).run s =
      ⟨.ok (), ((x.alone respond).run s).after, ((x.alone respond).run s).log⟩ := by
  simp [discard, run_alone_bind]

end Execution

/-! ## Frames -/

section Frames

def WritesOnly (allowed : Bytes → Prop) : Program Q A ε α → Prop
  | .done _ | .fail _ => True
  | .get _ next => ∀ value, WritesOnly allowed (next value)
  | .set key _ next => allowed key ∧ WritesOnly allowed next
  | .compareAndSet key _ _ next => allowed key ∧ ∀ swapped, WritesOnly allowed (next swapped)
  | .ask _ next => ∀ answer, WritesOnly allowed (next answer)

variable {allowed : Bytes → Prop}

theorem WritesOnly.bind {x : Program Q A ε α} {f : α → Program Q A ε β}
    (hx : x.WritesOnly allowed) (hf : ∀ a, (f a).WritesOnly allowed) :
    (x >>= f).WritesOnly allowed := by
  induction x with
  | done a => exact hf a
  | fail e => trivial
  | get key next ih => exact fun value => ih value (hx value)
  | set key value next ih => exact ⟨hx.1, ih hx.2⟩
  | compareAndSet key old new next ih => exact ⟨hx.1, fun swapped => ih swapped (hx.2 swapped)⟩
  | ask q next ih => exact fun answer => ih answer (hx answer)

theorem writesOnly_forM {f : α → Program Q A ε Unit} (hf : ∀ a, (f a).WritesOnly allowed)
    (xs : List α) : (forM xs f).WritesOnly allowed := by
  induction xs with
  | nil => trivial
  | cons a xs ih => exact (hf a).bind fun _ => ih

section Cells

variable {T : Type} [Codec T] (ref : StorageValueRef)

theorem writesOnly_get :
    (ref.get T : Program Q A ε (Option (Option T))).WritesOnly allowed :=
  fun _ => trivial

theorem writesOnly_set (href : allowed ref.key) (value : T) :
    (ref.set value : Program Q A ε Unit).WritesOnly allowed :=
  ⟨href, trivial⟩

theorem writesOnly_mutate (href : allowed ref.key) (f : Option (Option T) → Except ε T) :
    (ref.mutate f : Program Q A ε (Except T T)).WritesOnly allowed := by
  unfold StorageValueRef.mutate
  intro value
  dsimp only
  split
  · trivial
  · exact ⟨href, fun _ => trivial⟩

end Cells

/-- A cell that a program does not write survives its run, however it ends. -/
theorem find_alone_of_writesOnly (respond : ∀ q, World → A q × World) {x : Program Q A ε α}
    (hx : x.WritesOnly allowed) {key : Bytes} (hkey : ¬ allowed key) (s : LocalStorage × World) :
    ((x.alone respond).run s).after.1.find key = s.1.find key := by
  have other : ∀ k, allowed k → key ≠ k := by
    intro k hk heq
    exact hkey (heq ▸ hk)
  induction x generalizing s with
  | done a => rfl
  | fail e => rfl
  | get k next ih => exact ih _ (hx _) s
  | set k value next ih =>
      have hrest := ih hx.2 (s.1.insert k value, s.2)
      simpa [other k hx.1] using hrest
  | compareAndSet k old new next ih =>
      by_cases same : s.1.find k = old
      · have hrest := ih true (hx.2 true) (s.1.insert k new, s.2)
        simpa [same, other k hx.1] using hrest
      · have hrest := ih false (hx.2 false) s
        simpa [same] using hrest
  | ask q next ih => exact ih _ (hx _) (s.1, (respond q s.2).2)

end Frames

end Program

/-! ## Uninterrupted runs are schedules -/

@[simp] def Turn.worker {W Op : Type} : Turn W Op Q A → W
  | .begin w _ => w
  | .go w _ => w

section Schedules

variable {W Op : Type} [DecidableEq W] (program : Op → Program Q A ε Unit) (w : W)

/-- Turns of `w` alone lead from `n` to `m` and leave the history `h`. -/
def Reaches (n m : Node W Op Q A ε) (h : List (LogEntry W Op Q)) : Prop :=
  ∃ turns : List (Turn W Op Q A), (∀ t ∈ turns, t.worker = w) ∧
    (exec (turn program) n turns).final = m ∧ history program n turns = h

variable {w} {n m : Node W Op Q A ε} {h h' : List (LogEntry W Op Q)} {op : Op}

theorem Reaches.refl : Reaches program w n n [] :=
  ⟨[], by simp, rfl, rfl⟩

variable {program} in
theorem Reaches.trans {m' : Node W Op Q A ε} (first : Reaches program w n m h)
    (rest : Reaches program w m m' h') : Reaches program w n m' (h ++ h') := by
  obtain ⟨turns, own, rfl, rfl⟩ := first
  obtain ⟨turns', own', rfl, rfl⟩ := rest
  refine ⟨turns ++ turns', ?_, by rw [exec_append], by simp [history, exec_append]⟩
  intro t ht
  exact (List.mem_append.mp ht).elim (own t) (own' t)

theorem reaches_turn (t : Turn W Op Q A) (own : t.worker = w) :
    Reaches program w n (fire (turn program) n t).after (fire (turn program) n t).outcome.log :=
  ⟨[t], by simpa using own, rfl, by simp [history, exec]⟩

theorem reaches_begin (idle : n.idle w = true) (op : Op) :
    Reaches program w n (n.resume w op (program op)) [] := by
  have turn := reaches_turn program (n := n) (.begin w op) rfl
  simpa [fire, Transition.after, idle] using turn

theorem reaches_go {p : Program Q A ε Unit} (busy : n.running w = some (op, p))
    (world : ∀ q, A q) :
    Reaches program w n (n.advance w op p world)
      ((p.advance world n.store).2.2.toList.map fun e => ⟨w, op, e⟩) := by
  have turn := reaches_turn program (n := n) (.go w world) rfl
  simpa [fire, Transition.after, run_turn_go program busy world] using turn

variable (w) in
/-- Turns of `w` alone lead from `n` to the end of its operation, with this storage. -/
def Finishes (n : Node W Op Q A ε) (store : LocalStorage) (h : List (LogEntry W Op Q)) : Prop :=
  ∃ m, Reaches program w n m h ∧ m.store = store ∧ m.idle w = true

variable {program} in
theorem Reaches.finishes {store : LocalStorage} (first : Reaches program w n m h)
    (rest : Finishes program w m store h') : Finishes program w n store (h ++ h') := by
  obtain ⟨m', rest, stored, idle⟩ := rest
  exact ⟨m', first.trans rest, stored, idle⟩

variable (respond : ∀ q, World → A q × World)

/-- A program comes to its end in one turn for each access it makes. -/
theorem finishes_alone {p : Program Q A ε Unit} (busy : n.running w = some (op, p)) (s : World) :
    Finishes program w n ((p.alone respond).run (n.store, s)).after.1
      (((p.alone respond).run (n.store, s)).log.map fun e => ⟨w, op, e⟩) := by
  induction p generalizing n s with
  | done a => exact ⟨n, .refl program, rfl, by simp [Node.idle, busy, Program.stopped]⟩
  | fail e => exact ⟨n, .refl program, rfl, by simp [Node.idle, busy, Program.stopped]⟩
  | get key next ih =>
      have first := reaches_go program busy fun q => (respond q s).1
      have rest := ih _ (Node.resume_running_self n w op (next (n.store.find key))) s
      exact first.finishes rest
  | set key value next ih =>
      have first := reaches_go program busy fun q => (respond q s).1
      have rest := ih (Node.resume_running_self
        { n with store := n.store.insert key value } w op next) s
      exact first.finishes rest
  | compareAndSet key old new next ih =>
      have first := reaches_go program busy fun q => (respond q s).1
      by_cases same : n.store.find key = old
      · have rest := ih true (Node.resume_running_self
          { n with store := n.store.insert key new } w op (next true)) s
        simp only [Node.advance, Program.advance, if_pos same] at first
        simpa [same] using first.finishes rest
      · have rest := ih false (Node.resume_running_self n w op (next false)) s
        simp only [Node.advance, Program.advance, if_neg same] at first
        simpa [same] using first.finishes rest
  | ask q next ih =>
      have first := reaches_go program busy fun q => (respond q s).1
      have rest := ih _ (Node.resume_running_self n w op (next (respond q s).1)) (respond q s).2
      exact first.finishes rest

/-- Operations that are completed one after another are a schedule of one worker. -/
theorem finishes_exec (idle : n.idle w = true) (ops : List Op) (s : World) :
    let run := exec (fun op => (program op).alone respond) (n.store, s) ops
    Finishes program w n run.final.1
      (run.transitions.flatMap fun t => t.outcome.log.map fun e => ⟨w, t.input, e⟩) := by
  induction ops generalizing n s with
  | nil => exact ⟨n, .refl program, rfl, idle⟩
  | cons op ops ih =>
      have begun := reaches_begin program idle op
      obtain ⟨m, first, stored, still⟩ := begun.finishes
        (finishes_alone program respond (Node.resume_running_self n w op (program op)) s)
      have rest := ih still (((program op).alone respond).run (n.store, s)).after.2
      rw [stored] at rest
      exact first.finishes rest

end Schedules

end AbcDemo.Foundation
