import AbcDemo.Foundation.Interleaving

/-! # A lock cell and what it protects

A lock is one cell of the local storage, held while its value satisfies
`Held`. A program acquires it by a compare-and-set from a value that is not
held to one that is, and releases it by a set. Only the protocol of a single
program is examined, against an invariant of the storage and the history that
may be assumed after acquiring and must be restored before releasing. The rule
at the end gives from it that the lock excludes and that the invariant stands
whenever the lock is free, however the workers interleave.
-/

namespace AbcDemo.Foundation

variable {W Op Q : Type} {A : Q → Type} {ε : Type}

/-! ## Holders -/

/-- Whether an access acquires or releases the lock. -/
def Access.onLock (lock : Bytes) : Access Q → Option Bool
  | .swapped key _ => if key = lock then some true else none
  | .wrote key _ => if key = lock then some false else none
  | .asked _ => none

section Holders

variable [DecidableEq W] (lock : Bytes)

/-- `w` has acquired the lock and has not released it since. -/
def Holding (h : List (LogEntry W Op Q)) (w : W) : Prop :=
  lastWrite (fun e => if e.worker = w then e.access.onLock lock else none) h = some true

variable {lock}

theorem not_holding_nil (w : W) : ¬ Holding lock ([] : List (LogEntry W Op Q)) w := by
  simp [Holding]

theorem holding_acquired (h : List (LogEntry W Op Q)) (w w' : W) (op : Op) (value : Bytes) :
    Holding lock (h ++ [⟨w, op, .swapped lock value⟩]) w' ↔ w' = w ∨ Holding lock h w' := by
  by_cases hw : w = w' <;> simp [Holding, Access.onLock, hw, eq_comm]

theorem holding_released (h : List (LogEntry W Op Q)) (w w' : W) (op : Op) (value : Bytes) :
    Holding lock (h ++ [⟨w, op, .wrote lock value⟩]) w' ↔ w' ≠ w ∧ Holding lock h w' := by
  by_cases hw : w = w' <;> simp [Holding, Access.onLock, hw, eq_comm]

theorem holding_elsewhere {h : List (LogEntry W Op Q)} {e : LogEntry W Op Q}
    (he : e.access.onLock lock = none) (w : W) :
    Holding lock (h ++ [e]) w ↔ Holding lock h w := by
  simp [Holding, he]

end Holders

/-! ## The protocol of one program -/

section Protocol

variable (lock : Bytes) (Held : Option Bytes → Prop)
  (Inv : LocalStorage → List (LogEntry W Op Q) → Prop)

mutual

/-- The program touches nothing before it has acquired the lock. -/
def Outside (w : W) (op : Op) : Program Q A ε Unit → Prop
  | .done _ => True
  | .fail _ => True
  | .get _ next => ∀ value, Outside w op (next value)
  | .set _ _ _ => False
  | .compareAndSet key old new next =>
      key = lock ∧ ¬ Held old ∧ Held (some new) ∧ Outside w op (next false) ∧
        ∀ store h, Inv store h → Inside w op (next true) store h
  | .ask _ _ => False

/-- From this storage and history, the holder restores the invariant and
releases the lock before it stops. -/
def Inside (w : W) (op : Op) :
    Program Q A ε Unit → LocalStorage → List (LogEntry W Op Q) → Prop
  | .done _, _, _ => False
  | .fail _, _, _ => False
  | .get key next, store, h => Inside w op (next (store.find key)) store h
  | .set key value next, store, h =>
      if key = lock then ¬ Held (some value) ∧ Inv store h ∧ Outside w op next
      else Inside w op next (store.insert key value) (h ++ [⟨w, op, .wrote key value⟩])
  | .compareAndSet _ _ _ _, _, _ => False
  | .ask q next, store, h =>
      ∀ answer, Inside w op (next answer) store (h ++ [⟨w, op, .asked q⟩])

end

/-- What the workers of a node are up to, together. -/
inductive Guarded [DecidableEq W] (n : Node W Op Q A ε) (h : List (LogEntry W Op Q)) : Prop where
  | free (released : ¬ Held (n.store.find lock)) (inv : Inv n.store h)
      (nobody : ∀ w, ¬ Holding lock h w)
      (outside : ∀ w op p, n.running w = some (op, p) → Outside lock Held Inv w op p)
  | held (closed : Held (n.store.find lock)) (w : W) (op : Op) (p : Program Q A ε Unit)
      (holder : n.running w = some (op, p)) (inside : Inside lock Held Inv w op p n.store h)
      (only : ∀ w', Holding lock h w' ↔ w' = w)
      (outside : ∀ w', w' ≠ w → ∀ op p, n.running w' = some (op, p) →
        Outside lock Held Inv w' op p)

/-- The invariant does not look at the lock itself. -/
structure Unnoticed : Prop where
  acquired : ∀ {store h} (w : W) (op : Op) (value : Bytes), Inv store h →
    Inv (store.insert lock value) (h ++ [⟨w, op, .swapped lock value⟩])
  released : ∀ {store h} (w : W) (op : Op) (value : Bytes), Inv store h →
    Inv (store.insert lock value) (h ++ [⟨w, op, .wrote lock value⟩])

end Protocol

/-! ## One turn -/

section Turns

variable [DecidableEq W] {lock : Bytes} {Held : Option Bytes → Prop}
  {Inv : LocalStorage → List (LogEntry W Op Q) → Prop} {n : Node W Op Q A ε}
  {h : List (LogEntry W Op Q)} {w : W} {op : Op} {p : Program Q A ε Unit}

theorem Guarded.excludes (guarded : Guarded lock Held Inv n h) {w w' : W}
    (hw : Holding lock h w) (hw' : Holding lock h w') : w = w' := by
  cases guarded with
  | free _ _ nobody => exact absurd hw (nobody w)
  | held _ w₀ _ _ _ _ only _ => exact ((only w).mp hw).trans ((only w').mp hw').symm

theorem Guarded.held_iff (guarded : Guarded lock Held Inv n h) :
    Held (n.store.find lock) ↔ ∃ w, Holding lock h w := by
  cases guarded with
  | free released _ nobody =>
      constructor
      · exact fun closed => absurd closed released
      · exact fun holding => absurd holding.choose_spec (nobody _)
  | held closed w _ _ _ _ only _ => exact ⟨fun _ => ⟨w, (only w).mpr rfl⟩, fun _ => closed⟩

theorem Guarded.inv (guarded : Guarded lock Held Inv n h)
    (released : ¬ Held (n.store.find lock)) : Inv n.store h := by
  cases guarded with
  | free _ inv => exact inv
  | held closed => exact absurd closed released

/-- A busy worker either holds the lock and is inside, or neither. -/
theorem Guarded.busy (guarded : Guarded lock Held Inv n h) (busy : n.running w = some (op, p)) :
    (¬ Holding lock h w ∧ Outside lock Held Inv w op p) ∨
      (Holding lock h w ∧ Inside lock Held Inv w op p n.store h) := by
  cases guarded with
  | free _ _ nobody outside => exact .inl ⟨nobody w, outside w op p busy⟩
  | held _ w₀ op₀ p₀ holder inside only outside =>
      by_cases hw : w = w₀
      · subst hw
        rw [busy] at holder
        cases holder
        exact .inr ⟨(only w).mpr rfl, inside⟩
      · exact .inl ⟨fun holding => hw ((only w).mp holding), outside w hw op p busy⟩

/-- What a worker without the lock has left to do is its own business. -/
theorem Guarded.resume (guarded : Guarded lock Held Inv n h) (without : ¬ Holding lock h w)
    (outside : Outside lock Held Inv w op p) : Guarded lock Held Inv (n.resume w op p) h := by
  cases guarded with
  | free released inv nobody rest =>
      refine .free released inv nobody ?_
      intro w' op' p' busy
      rcases Node.running_resume busy with ⟨rfl, rfl, rfl⟩ | ⟨_, busy⟩
      · exact outside
      · exact rest w' op' p' busy
  | held closed w₀ op₀ p₀ holder inside only rest =>
      have hw : w₀ ≠ w := fun hw => without ((only w).mpr hw.symm)
      have holder : (n.resume w op p).running w₀ = some (op₀, p₀) := by
        rw [Node.resume_running_other n hw]
        exact holder
      refine .held closed w₀ op₀ p₀ holder inside only ?_
      intro w' hne op' p' busy
      rcases Node.running_resume busy with ⟨rfl, rfl, rfl⟩ | ⟨_, busy⟩
      · exact outside
      · exact rest w' hne op' p' busy

/-- Taking a free lock, with the invariant at hand. -/
theorem Guarded.acquire (guarded : Guarded lock Held Inv n h) (unnoticed : Unnoticed lock Inv)
    (vacant : ¬ Held (n.store.find lock)) {value : Bytes} (taken : Held (some value))
    (acquired : ∀ store h, Inv store h → Inside lock Held Inv w op p store h) :
    Guarded lock Held Inv ({ n with store := n.store.insert lock value }.resume w op p)
      (h ++ [⟨w, op, .swapped lock value⟩]) := by
  cases guarded with
  | held closed => exact absurd closed vacant
  | free released inv nobody rest =>
      have inside := acquired _ _ (unnoticed.acquired w op value inv)
      refine .held (by simpa using taken) w op p (Node.resume_running_self ..) inside ?_ ?_
      · intro w'
        simp [holding_acquired, nobody w']
      · intro w' hne op' q busy
        rw [Node.resume_running_other _ hne] at busy
        exact rest w' op' q busy

/-- Only a compare-and-set that finds the lock free does more than look. -/
theorem Guarded.advance_outside (guarded : Guarded lock Held Inv n h)
    (unnoticed : Unnoticed lock Inv) (without : ¬ Holding lock h w)
    (outside : Outside lock Held Inv w op p) (world : ∀ q, A q) :
    Guarded lock Held Inv (n.advance w op p world)
      (h ++ (p.advance world n.store).2.2.toList.map fun e => ⟨w, op, e⟩) := by
  cases p with
  | done a => simpa [Node.advance, Program.advance] using guarded.resume without outside
  | fail e => simpa [Node.advance, Program.advance] using guarded.resume without outside
  | get key next =>
      unfold Outside at outside
      simpa [Node.advance, Program.advance] using guarded.resume without (outside _)
  | set key value next => simp [Outside] at outside
  | ask q next => simp [Outside] at outside
  | compareAndSet key old new next =>
      unfold Outside at outside
      obtain ⟨rfl, vacant, taken, missed, acquired⟩ := outside
      by_cases same : n.store.find key = old
      · rw [← same] at vacant
        have acquire := guarded.acquire unnoticed vacant taken acquired
        simpa [Node.advance, Program.advance, same] using acquire
      · simpa [Node.advance, Program.advance, same] using guarded.resume without missed

/-- The holder goes on under the lock, whatever it has done to the rest. -/
theorem Guarded.stay (guarded : Guarded lock Held Inv n h) (holding : Holding lock h w)
    {store : LocalStorage} {h' : List (LogEntry W Op Q)} (closed : Held (store.find lock))
    (same : ∀ w', Holding lock h' w' ↔ Holding lock h w')
    (inside : Inside lock Held Inv w op p store h') :
    Guarded lock Held Inv ({ n with store := store }.resume w op p) h' := by
  cases guarded with
  | free _ _ nobody => exact absurd holding (nobody w)
  | held _ w₀ _ _ _ _ only rest =>
      have hw : w = w₀ := (only w).mp holding
      subst hw
      refine .held closed w op p (Node.resume_running_self ..) inside ?_ ?_
      · intro w'
        rw [same, only]
      · intro w' hne op' q busy
        rw [Node.resume_running_other _ hne] at busy
        exact rest w' hne op' q busy

/-- The holder leaves the lock free, with the invariant restored. -/
theorem Guarded.release (guarded : Guarded lock Held Inv n h) (unnoticed : Unnoticed lock Inv)
    (holding : Holding lock h w) {value : Bytes} (released : ¬ Held (some value))
    (inv : Inv n.store h) (outside : Outside lock Held Inv w op p) :
    Guarded lock Held Inv ({ n with store := n.store.insert lock value }.resume w op p)
      (h ++ [⟨w, op, .wrote lock value⟩]) := by
  cases guarded with
  | free _ _ nobody => exact absurd holding (nobody w)
  | held _ w₀ _ _ _ _ only rest =>
      have hw : w = w₀ := (only w).mp holding
      subst hw
      refine .free (by simpa using released) (unnoticed.released w op value inv) ?_ ?_
      · intro w'
        simp [holding_released, only]
      · intro w' op' q busy
        rcases Node.running_resume busy with ⟨rfl, rfl, rfl⟩ | ⟨hne, busy⟩
        · exact outside
        · exact rest w' hne op' q busy

/-- The holder is on its own until it releases the lock. -/
theorem Guarded.advance_inside (guarded : Guarded lock Held Inv n h)
    (unnoticed : Unnoticed lock Inv) (holding : Holding lock h w)
    (inside : Inside lock Held Inv w op p n.store h) (world : ∀ q, A q) :
    Guarded lock Held Inv (n.advance w op p world)
      (h ++ (p.advance world n.store).2.2.toList.map fun e => ⟨w, op, e⟩) := by
  have closed : Held (n.store.find lock) := guarded.held_iff.mpr ⟨w, holding⟩
  cases p with
  | done a => simp [Inside] at inside
  | fail e => simp [Inside] at inside
  | compareAndSet key old new next => simp [Inside] at inside
  | get key next =>
      unfold Inside at inside
      have stay := guarded.stay holding closed (fun _ => Iff.rfl) inside
      simpa [Node.advance, Program.advance] using stay
  | ask q next =>
      unfold Inside at inside
      exact guarded.stay holding closed (fun w' => holding_elsewhere rfl w') (inside (world q))
  | set key value next =>
      unfold Inside at inside
      by_cases hkey : key = lock
      · rw [if_pos hkey] at inside
        obtain ⟨released, inv, outside⟩ := inside
        subst hkey
        exact guarded.release unnoticed holding released inv outside
      · rw [if_neg hkey] at inside
        have other : Access.onLock lock (.wrote key value : Access Q) = none := by
          simp [Access.onLock, hkey]
        have still : Held ((n.store.insert key value).find lock) := by
          simpa [Ne.symm hkey] using closed
        exact guarded.stay holding still (fun w' => holding_elsewhere other w') inside

end Turns

/-! ## Whole schedules -/

section Schedules

variable [DecidableEq W] {lock : Bytes} {Held : Option Bytes → Prop}
  {Inv : LocalStorage → List (LogEntry W Op Q) → Prop} {program : Op → Program Q A ε Unit}
  {n : Node W Op Q A ε} {h : List (LogEntry W Op Q)}

theorem Guarded.turn (guarded : Guarded lock Held Inv n h) (unnoticed : Unnoticed lock Inv)
    (obeys : ∀ w op, Outside lock Held Inv w op (program op)) (t : Turn W Op Q A) :
    Guarded lock Held Inv (fire (turn program) n t).after
      (h ++ (fire (turn program) n t).outcome.log) := by
  cases t with
  | begin w op =>
      by_cases idle : n.idle w = true
      · have without : ¬ Holding lock h w := by
          intro holding
          cases guarded with
          | free _ _ nobody => exact nobody w holding
          | held _ w₀ op₀ p₀ holder inside only _ =>
              rw [(only w).mp holding] at idle
              simp only [Node.idle, holder] at idle
              cases p₀ <;> simp [Program.stopped, Inside] at idle inside
        simpa [fire, Transition.after, idle] using guarded.resume without (obeys w op)
      · simpa [fire, Transition.after, idle] using guarded
  | go w world =>
      cases busy : n.running w with
      | none =>
          simpa [fire, Transition.after, run_turn_go_idle program busy world] using guarded
      | some slot =>
          obtain ⟨op, p⟩ := slot
          simp only [fire, Transition.after, run_turn_go program busy world]
          rcases guarded.busy busy with ⟨without, outside⟩ | ⟨holding, inside⟩
          · exact guarded.advance_outside unnoticed without outside world
          · exact guarded.advance_inside unnoticed holding inside world

/-- Programs that obey the protocol keep each other out and the invariant up. -/
theorem exec_guarded (unnoticed : Unnoticed lock Inv)
    (obeys : ∀ w op, Outside lock Held Inv w op (program op)) {store : LocalStorage}
    (released : ¬ Held (store.find lock)) (inv : Inv store []) (turns : List (Turn W Op Q A)) :
    Guarded lock Held Inv (exec (turn program) (Node.start store) turns).final
      (history program (Node.start store) turns) := by
  unfold history
  apply exec_history (turn program) (P := fun ts m =>
    Guarded lock Held Inv m (ts.flatMap (·.outcome.log)))
  · exact .free released inv not_holding_nil fun w op p busy => by simp [Node.start] at busy
  · intro ts m t guarded
    rw [List.flatMap_append]
    simpa using guarded.turn unnoticed obeys t

end Schedules

end AbcDemo.Foundation
