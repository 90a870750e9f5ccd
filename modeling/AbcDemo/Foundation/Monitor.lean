import AbcDemo.Foundation.Evidence
import AbcDemo.Foundation.Locking

/-! # A lock among other business

A monitor is a lock with what its holder may see of the storage and the history
and an invariant of that view. Unlike under the plain protocol of a lock, those
who do not hold it may go about whatever leaves the view as it is: write other
cells, take other locks, talk to the outside world. The rule at the end is that
of the plain protocol, and that no lock outlives the operation that took it.
-/

namespace AbcDemo.Foundation

variable {W Op Q Q' : Type} {A : Q → Type} {A' : Q' → Type} {ε ε' α β V : Type}

namespace Program

/-- Go on with `k` from what the program comes to. -/
def conclude (k : Except ε α → Program Q A ε' β) : Program Q A ε α → Program Q A ε' β
  | .done a => k (.ok a)
  | .fail e => k (.error e)
  | .get key next => .get key fun value => conclude k (next value)
  | .set key value next => .set key value (conclude k next)
  | .compareAndSet key old new next =>
      .compareAndSet key old new fun swapped => conclude k (next swapped)
  | .ask q next => .ask q fun answer => conclude k (next answer)

theorem bind_eq_conclude (x : Program Q A ε α) (f : α → Program Q A ε β) :
    x >>= f = x.conclude fun r => match r with | .ok a => f a | .error e => .fail e := by
  induction x with
  | done a => rfl
  | fail e => rfl
  | get key next ih => exact congrArg (get key) (funext ih)
  | set key value next ih => exact congrArg (set key value) ih
  | compareAndSet key old new next ih => exact congrArg (compareAndSet key old new) (funext ih)
  | ask q next ih => exact congrArg (ask q) (funext ih)

theorem attempt_eq_conclude (x : Program Q A ε α) :
    (x.attempt : Program Q A ε' (Except ε α)) = x.conclude .done := by
  induction x with
  | done a => rfl
  | fail e => rfl
  | get key next ih => exact congrArg (get key) (funext ih)
  | set key value next ih => exact congrArg (set key value) ih
  | compareAndSet key old new next ih => exact congrArg (compareAndSet key old new) (funext ih)
  | ask q next ih => exact congrArg (ask q) (funext ih)

end Program

def Access.apply : Access Q → LocalStorage → LocalStorage
  | .wrote key value, store => store.insert key value
  | .swapped key value, store => store.insert key value
  | .asked _, store => store

structure Monitor (W Op Q V : Type) where
  lock : Bytes
  Held : Option Bytes → Prop
  view : LocalStorage → List (LogEntry W Op Q) → V
  Inv : V → Prop

namespace Monitor

variable (M : Monitor W Op Q V) (w : W) (op : Op)

/-- The access is none of the monitor's business. -/
def Silent (a : Access Q) : Prop :=
  ∀ store h, M.view (a.apply store) (h ++ [⟨w, op, a⟩]) = M.view store h

/-! ## The protocol of one program -/

/-- With this view at its beginning, the holder of the lock comes to a value, and to `post`. -/
def Within (post : α → V → Prop) : Program Q A ε α → V → Prop
  | .done a, v => post a v
  | .fail _, _ => False
  | .get key next, v => ∀ store h, M.view store h = v → Within post (next (store.find key)) v
  | .set key value next, v =>
      key ≠ M.lock ∧ ∀ store h, M.view store h = v →
        Within post next (M.view (store.insert key value) (h ++ [⟨w, op, .wrote key value⟩]))
  | .compareAndSet _ _ _ _, _ => False
  | .ask q next, v =>
      ∀ answer store h, M.view store h = v →
        Within post (next answer) (M.view store (h ++ [⟨w, op, .asked q⟩]))

mutual

/-- Without the lock, the program does nothing of the monitor's business. -/
def Outside : Program Q A ε α → Prop
  | .done _ => True
  | .fail _ => True
  | .get _ next => ∀ value, Outside (next value)
  | .set key value next => key ≠ M.lock ∧ M.Silent w op (.wrote key value) ∧ Outside next
  | .compareAndSet key old new next =>
      (if key = M.lock then ¬ M.Held old ∧ M.Held (some new) ∧ ∀ v, M.Inv v → Inside (next true) v
        else M.Silent w op (.swapped key new) ∧ Outside (next true)) ∧ Outside (next false)
  | .ask q next => M.Silent w op (.asked q) ∧ ∀ answer, Outside (next answer)

/-- With the lock and this view, the program restores the invariant and releases the lock. -/
def Inside : Program Q A ε α → V → Prop
  | .done _, _ => False
  | .fail _, _ => False
  | .get key next, v => ∀ store h, M.view store h = v → Inside (next (store.find key)) v
  | .set key value next, v =>
      if key = M.lock then ¬ M.Held (some value) ∧ M.Inv v ∧ Outside next
      else ∀ store h, M.view store h = v →
        Inside next (M.view (store.insert key value) (h ++ [⟨w, op, .wrote key value⟩]))
  | .compareAndSet _ _ _ _, _ => False
  | .ask q next, v =>
      ∀ answer store h, M.view store h = v →
        Inside (next answer) (M.view store (h ++ [⟨w, op, .asked q⟩]))

end

section Rules

variable {M w op} {x : Program Q A ε α} {f : α → Program Q A ε β} {v : V}

theorem outside_get {T : Type} [Codec T] {ref : StorageValueRef}
    {f : Option (Option T) → Program Q' A' ε' α} {handler : ∀ q, Program Q A ε (A' q)}
    {onError : ε' → ε} (hf : ∀ value, M.Outside w op ((f value).translate handler onError)) :
    M.Outside w op ((ref.get T >>= f).translate handler onError) :=
  fun value => hf (value.map Codec.decode)

/-- A read returns what some storage with this view holds. -/
theorem within_get {T : Type} [Codec T] {ref : StorageValueRef}
    {f : Option (Option T) → Program Q' A' ε' α} {handler : ∀ q, Program Q A ε (A' q)}
    {onError : ε' → ε} {post : α → V → Prop}
    (hf : ∀ store h, M.view store h = v →
      M.Within w op post
        ((f ((store.find ref.key).map Codec.decode)).translate handler onError) v) :
    M.Within w op post ((ref.get T >>= f).translate handler onError) v :=
  hf

/-- What follows is outside, for the program has released the lock if it has held it. -/
theorem outside_inside_conclude {k : Except ε α → Program Q A ε' β}
    (hk : ∀ r, M.Outside w op (k r)) :
    (M.Outside w op x → M.Outside w op (x.conclude k)) ∧
      ∀ v, M.Inside w op x v → M.Inside w op (x.conclude k) v := by
  induction x with
  | done a => exact ⟨fun _ => hk (.ok a), fun v hx => absurd hx (by simp [Inside])⟩
  | fail e => exact ⟨fun _ => hk (.error e), fun v hx => absurd hx (by simp [Inside])⟩
  | get key next ih =>
      simp only [Program.conclude, Outside, Inside]
      exact ⟨fun hx value => (ih value).1 (hx value),
        fun v hx store h seen => (ih _).2 v (hx store h seen)⟩
  | set key value next ih =>
      simp only [Program.conclude, Outside, Inside]
      refine ⟨fun hx => ⟨hx.1, hx.2.1, ih.1 hx.2.2⟩, fun v hx => ?_⟩
      by_cases released : key = M.lock
      · rw [if_pos released] at hx ⊢
        exact ⟨hx.1, hx.2.1, ih.1 hx.2.2⟩
      · rw [if_neg released] at hx ⊢
        exact fun store h seen => ih.2 _ (hx store h seen)
  | compareAndSet key old new next ih =>
      simp only [Program.conclude, Outside, Inside]
      refine ⟨fun hx => ⟨?_, (ih false).1 hx.2⟩, fun _ hx => hx⟩
      by_cases acquired : key = M.lock
      · rw [if_pos acquired] at hx ⊢
        exact ⟨hx.1.1, hx.1.2.1, fun v inv => (ih true).2 v (hx.1.2.2 v inv)⟩
      · rw [if_neg acquired] at hx ⊢
        exact ⟨hx.1.1, (ih true).1 hx.1.2⟩
  | ask q next ih =>
      simp only [Program.conclude, Outside, Inside]
      exact ⟨fun hx => ⟨hx.1, fun answer => (ih answer).1 (hx.2 answer)⟩,
        fun v hx answer store h seen => (ih answer).2 _ (hx answer store h seen)⟩

theorem Outside.bind (hx : M.Outside w op x) (hf : ∀ a, M.Outside w op (f a)) :
    M.Outside w op (x >>= f) := by
  rw [Program.bind_eq_conclude]
  apply (outside_inside_conclude fun r => ?_).1 hx
  cases r with
  | ok a => exact hf a
  | error e => trivial

theorem Outside.attempt (hx : M.Outside w op x) :
    M.Outside w op (x.attempt : Program Q A ε' (Except ε α)) := by
  rw [Program.attempt_eq_conclude]
  apply (outside_inside_conclude fun r => ?_).1 hx
  trivial

theorem Outside.discard (hx : M.Outside w op x) :
    M.Outside w op (x.discard : Program Q A ε' Unit) := by
  unfold Program.discard
  apply hx.attempt.bind
  exact fun _ => trivial

theorem outside_forM {f : β → Program Q A ε Unit} {xs : List β}
    (hf : ∀ b ∈ xs, M.Outside w op (f b)) : M.Outside w op (forM xs f) := by
  induction xs with
  | nil => trivial
  | cons b xs ih =>
      rw [List.forM_cons]
      apply (hf b List.mem_cons_self).bind
      exact fun _ => ih fun b' hb' => hf b' (List.mem_cons_of_mem b hb')

/-- What the holder does before it goes on to release the lock. -/
theorem Inside.after (hx : M.Within w op (fun a v => M.Inside w op (f a) v) x v) :
    M.Inside w op (x >>= f) v := by
  induction x generalizing v with
  | done a => exact hx
  | fail e => exact absurd hx (by simp [Within])
  | get key next ih =>
      simp only [Program.get_bind, Inside]
      exact fun store h seen => ih _ (hx store h seen)
  | set key value next ih =>
      simp only [Program.set_bind, Inside]
      rw [if_neg hx.1]
      exact fun store h seen => ih (hx.2 store h seen)
  | compareAndSet key old new next ih => exact absurd hx (by simp [Within])
  | ask q next ih =>
      simp only [Program.ask_bind, Inside]
      exact fun answer store h seen => ih answer (hx answer store h seen)

theorem Within.weaken {post post' : α → V → Prop} (hx : M.Within w op post x v)
    (weaker : ∀ a v, post a v → post' a v) : M.Within w op post' x v := by
  induction x generalizing v with
  | done a => exact weaker a v hx
  | fail e => exact absurd hx (by simp [Within])
  | get key next ih => exact fun store h seen => ih _ (hx store h seen)
  | set key value next ih => exact ⟨hx.1, fun store h seen => ih (hx.2 store h seen)⟩
  | compareAndSet key old new next ih => exact absurd hx (by simp [Within])
  | ask q next ih => exact fun answer store h seen => ih answer (hx answer store h seen)

theorem Within.bind {post : β → V → Prop}
    (hx : M.Within w op (fun a v => M.Within w op post (f a) v) x v) :
    M.Within w op post (x >>= f) v := by
  induction x generalizing v with
  | done a => exact hx
  | fail e => exact absurd hx (by simp [Within])
  | get key next ih => exact fun store h seen => ih _ (hx store h seen)
  | set key value next ih => exact ⟨hx.1, fun store h seen => ih (hx.2 store h seen)⟩
  | compareAndSet key old new next ih => exact absurd hx (by simp [Within])
  | ask q next ih => exact fun answer store h seen => ih answer (hx answer store h seen)

end Rules

/-! ## What the workers are up to -/

/-- Taking and releasing the lock are none of the business that it protects. -/
structure Unnoticed : Prop where
  acquired : ∀ w op value, M.Silent w op (.swapped M.lock value)
  released : ∀ w op value, M.Silent w op (.wrote M.lock value)

/-- What the workers of a node are up to, together. -/
inductive Guarded [DecidableEq W] (n : Node W Op Q A ε) (h : List (LogEntry W Op Q)) : Prop where
  | free (released : ¬ M.Held (n.store.find M.lock)) (inv : M.Inv (M.view n.store h))
      (nobody : ∀ w, ¬ Holding M.lock h w)
      (outside : ∀ w op p, n.running w = some (op, p) → M.Outside w op p)
  | held (closed : M.Held (n.store.find M.lock)) (w : W) (op : Op) (p : Program Q A ε Unit)
      (holder : n.running w = some (op, p)) (inside : M.Inside w op p (M.view n.store h))
      (only : ∀ w', Holding M.lock h w' ↔ w' = w)
      (outside : ∀ w', w' ≠ w → ∀ op p, n.running w' = some (op, p) → M.Outside w' op p)

section Turns

variable [DecidableEq W] {M} {n : Node W Op Q A ε} {h : List (LogEntry W Op Q)} {w : W} {op : Op}
  {p : Program Q A ε Unit}

theorem Guarded.excludes (guarded : M.Guarded n h) {w w' : W} (hw : Holding M.lock h w)
    (hw' : Holding M.lock h w') : w = w' := by
  cases guarded with
  | free _ _ nobody => exact absurd hw (nobody w)
  | held _ w₀ _ _ _ _ only _ => exact ((only w).mp hw).trans ((only w').mp hw').symm

theorem Guarded.held_iff (guarded : M.Guarded n h) :
    M.Held (n.store.find M.lock) ↔ ∃ w, Holding M.lock h w := by
  cases guarded with
  | free released _ nobody =>
      exact ⟨fun closed => absurd closed released,
        fun holding => absurd holding.choose_spec (nobody _)⟩
  | held closed w _ _ _ _ only _ => exact ⟨fun _ => ⟨w, (only w).mpr rfl⟩, fun _ => closed⟩

theorem Guarded.inv (guarded : M.Guarded n h) (released : ¬ M.Held (n.store.find M.lock)) :
    M.Inv (M.view n.store h) := by
  cases guarded with
  | free _ inv => exact inv
  | held closed => exact absurd closed released

/-- Whoever holds the lock is in the middle of an operation. -/
theorem Guarded.busy_of_holding (guarded : M.Guarded n h) (holding : Holding M.lock h w) :
    n.idle w = false := by
  cases guarded with
  | free _ _ nobody => exact absurd holding (nobody w)
  | held _ w₀ op₀ p₀ holder inside only _ =>
      rw [(only w).mp holding]
      simp only [Node.idle, holder]
      cases p₀ <;> simp [Program.stopped, Inside] at inside ⊢

/-- A worker without the lock makes an access that does not count, or none. -/
theorem Guarded.quiet (guarded : M.Guarded n h) (without : ¬ Holding M.lock h w)
    (outside : M.Outside w op p) {store : LocalStorage} {h' : List (LogEntry W Op Q)}
    (cell : store.find M.lock = n.store.find M.lock)
    (same : ∀ w', Holding M.lock h' w' ↔ Holding M.lock h w')
    (view : M.view store h' = M.view n.store h) :
    M.Guarded ({ n with store := store }.resume w op p) h' := by
  cases guarded with
  | free released inv nobody rest =>
      refine .free (by simpa [cell] using released) (by simpa [view] using inv) ?_ ?_
      · exact fun w' => (same w').not.mpr (nobody w')
      · intro w' op' p' busy
        rcases Node.running_resume busy with ⟨rfl, rfl, rfl⟩ | ⟨_, busy⟩
        · exact outside
        · exact rest w' op' p' busy
  | held closed w₀ op₀ p₀ holder inside only rest =>
      have hw : w₀ ≠ w := fun hw => without ((only w).mpr hw.symm)
      refine .held (by simpa [cell] using closed) w₀ op₀ p₀ ?_ (by simpa [view] using inside) ?_ ?_
      · rw [Node.resume_running_other _ hw]
        exact holder
      · exact fun w' => (same w').trans (only w')
      · intro w' hne op' p' busy
        rcases Node.running_resume busy with ⟨rfl, rfl, rfl⟩ | ⟨_, busy⟩
        · exact outside
        · exact rest w' hne op' p' busy

/-- Taking a free lock. -/
theorem Guarded.acquire (guarded : M.Guarded n h) (unnoticed : M.Unnoticed)
    (vacant : ¬ M.Held (n.store.find M.lock)) {value : Bytes} (taken : M.Held (some value))
    (acquired : ∀ v, M.Inv v → M.Inside w op p v) :
    M.Guarded ({ n with store := n.store.insert M.lock value }.resume w op p)
      (h ++ [⟨w, op, .swapped M.lock value⟩]) := by
  cases guarded with
  | held closed => exact absurd closed vacant
  | free released inv nobody rest =>
      have seen := unnoticed.acquired w op value n.store h
      refine .held (by simpa using taken) w op p (Node.resume_running_self ..) ?_ ?_ ?_
      · rw [Access.apply] at seen
        simpa [seen] using acquired _ inv
      · intro w'
        simp [holding_acquired, nobody w']
      · intro w' hne op' q busy
        rw [Node.resume_running_other _ hne] at busy
        exact rest w' op' q busy

theorem Guarded.advance_outside (guarded : M.Guarded n h) (unnoticed : M.Unnoticed)
    (without : ¬ Holding M.lock h w) (outside : M.Outside w op p) (world : ∀ q, A q) :
    M.Guarded (n.advance w op p world)
      (h ++ (p.advance world n.store).2.2.toList.map fun e => ⟨w, op, e⟩) := by
  cases p with
  | done a => simpa [Node.advance, Program.advance] using
      guarded.quiet without outside rfl (fun _ => Iff.rfl) rfl
  | fail e => simpa [Node.advance, Program.advance] using
      guarded.quiet without outside rfl (fun _ => Iff.rfl) rfl
  | get key next =>
      unfold Outside at outside
      simpa [Node.advance, Program.advance] using
        guarded.quiet without (outside _) rfl (fun _ => Iff.rfl) rfl
  | set key value next =>
      unfold Outside at outside
      obtain ⟨other, silent, outside⟩ := outside
      apply guarded.quiet without outside
      · simp [Program.advance, Ne.symm other]
      · exact fun w' => holding_elsewhere (by simp [Access.onLock, other]) w'
      · exact silent n.store h
  | ask q next =>
      unfold Outside at outside
      exact guarded.quiet without (outside.2 (world q)) rfl (fun w' => holding_elsewhere rfl w')
        (outside.1 n.store h)
  | compareAndSet key old new next =>
      unfold Outside at outside
      obtain ⟨acquires, missed⟩ := outside
      by_cases same : n.store.find key = old
      · simp only [Node.advance, Program.advance, if_pos same, Option.toList_some, List.map_cons,
          List.map_nil]
        by_cases hkey : key = M.lock
        · rw [if_pos hkey] at acquires
          subst hkey
          exact guarded.acquire unnoticed (same ▸ acquires.1) acquires.2.1 acquires.2.2
        · rw [if_neg hkey] at acquires
          apply guarded.quiet without acquires.2
          · simp [Ne.symm hkey]
          · exact fun w' => holding_elsewhere (by simp [Access.onLock, hkey]) w'
          · exact acquires.1 n.store h
      · simpa [Node.advance, Program.advance, same] using
          guarded.quiet without missed rfl (fun _ => Iff.rfl) rfl

/-- The holder goes on under the lock. -/
theorem Guarded.stay (guarded : M.Guarded n h) (holding : Holding M.lock h w)
    {store : LocalStorage} {h' : List (LogEntry W Op Q)}
    (cell : store.find M.lock = n.store.find M.lock)
    (same : ∀ w', Holding M.lock h' w' ↔ Holding M.lock h w')
    (inside : M.Inside w op p (M.view store h')) :
    M.Guarded ({ n with store := store }.resume w op p) h' := by
  cases guarded with
  | free _ _ nobody => exact absurd holding (nobody w)
  | held closed w₀ _ _ _ _ only rest =>
      obtain rfl : w = w₀ := (only w).mp holding
      refine .held (by simpa [cell] using closed) w op p (Node.resume_running_self ..) inside ?_ ?_
      · exact fun w' => (same w').trans (only w')
      · intro w' hne op' q busy
        rw [Node.resume_running_other _ hne] at busy
        exact rest w' hne op' q busy

/-- The holder leaves the lock free, with the invariant restored. -/
theorem Guarded.release (guarded : M.Guarded n h) (unnoticed : M.Unnoticed)
    (holding : Holding M.lock h w) {value : Bytes} (released : ¬ M.Held (some value))
    (inv : M.Inv (M.view n.store h)) (outside : M.Outside w op p) :
    M.Guarded ({ n with store := n.store.insert M.lock value }.resume w op p)
      (h ++ [⟨w, op, .wrote M.lock value⟩]) := by
  cases guarded with
  | free _ _ nobody => exact absurd holding (nobody w)
  | held closed w₀ _ _ _ _ only rest =>
      obtain rfl : w = w₀ := (only w).mp holding
      have seen := unnoticed.released w op value n.store h
      refine .free (by simpa using released) ?_ ?_ ?_
      · rw [Access.apply] at seen
        simpa [seen] using inv
      · intro w'
        simp [holding_released, only]
      · intro w' op' q busy
        rcases Node.running_resume busy with ⟨rfl, rfl, rfl⟩ | ⟨hne, busy⟩
        · exact outside
        · exact rest w' hne op' q busy

theorem Guarded.advance_inside (guarded : M.Guarded n h) (unnoticed : M.Unnoticed)
    (holding : Holding M.lock h w) (inside : M.Inside w op p (M.view n.store h))
    (world : ∀ q, A q) :
    M.Guarded (n.advance w op p world)
      (h ++ (p.advance world n.store).2.2.toList.map fun e => ⟨w, op, e⟩) := by
  cases p with
  | done a => simp [Inside] at inside
  | fail e => simp [Inside] at inside
  | compareAndSet key old new next => simp [Inside] at inside
  | get key next =>
      unfold Inside at inside
      simpa [Node.advance, Program.advance] using
        guarded.stay holding rfl (fun _ => Iff.rfl) (inside n.store h rfl)
  | ask q next =>
      unfold Inside at inside
      exact guarded.stay holding rfl (fun w' => holding_elsewhere rfl w')
        (inside (world q) n.store h rfl)
  | set key value next =>
      unfold Inside at inside
      by_cases hkey : key = M.lock
      · rw [if_pos hkey] at inside
        obtain ⟨released, inv, outside⟩ := inside
        subst hkey
        exact guarded.release unnoticed holding released inv outside
      · rw [if_neg hkey] at inside
        apply guarded.stay holding
        · simp [Program.advance, Ne.symm hkey]
        · exact fun w' => holding_elsewhere (by simp [Access.onLock, hkey]) w'
        · exact inside n.store h rfl

theorem Guarded.turn {program : Op → Program Q A ε Unit} (guarded : M.Guarded n h)
    (unnoticed : M.Unnoticed) (obeys : ∀ w op, M.Outside w op (program op))
    (t : Turn W Op Q A) :
    M.Guarded (fire (turn program) n t).after (h ++ (fire (turn program) n t).outcome.log) := by
  cases t with
  | begin w op =>
      by_cases idle : n.idle w = true
      · have without : ¬ Holding M.lock h w := by
          intro holding
          rw [guarded.busy_of_holding holding] at idle
          cases idle
        simpa [fire, Transition.after, idle] using
          guarded.quiet without (obeys w op) rfl (fun _ => Iff.rfl) rfl
      · simpa [fire, Transition.after, idle] using guarded
  | go w world =>
      cases busy : n.running w with
      | none =>
          simpa [fire, Transition.after, run_turn_go_idle program busy world] using guarded
      | some slot =>
          obtain ⟨op, p⟩ := slot
          simp only [fire, Transition.after, run_turn_go program busy world]
          by_cases holding : Holding M.lock h w
          · refine guarded.advance_inside unnoticed holding ?_ world
            cases guarded with
            | free _ _ nobody => exact absurd holding (nobody w)
            | held _ w₀ _ _ holder inside only _ =>
                obtain rfl : w = w₀ := (only w).mp holding
                rw [busy] at holder
                cases holder
                exact inside
          · refine guarded.advance_outside unnoticed holding ?_ world
            cases guarded with
            | free _ _ _ outside => exact outside w op p busy
            | held _ w₀ _ _ _ _ only outside =>
                exact outside w (fun hw => holding ((only w).mpr hw)) op p busy

/-- However the workers interleave, those without the lock keep off the monitor's business. -/
theorem exec_guarded {program : Op → Program Q A ε Unit} (unnoticed : M.Unnoticed)
    (obeys : ∀ w op, M.Outside w op (program op)) {store : LocalStorage}
    (released : ¬ M.Held (store.find M.lock)) (inv : M.Inv (M.view store []))
    (turns : List (Turn W Op Q A)) :
    M.Guarded (exec (Foundation.turn program) (Node.start store) turns).final
      (history program (Node.start store) turns) := by
  unfold history
  apply exec_history (Foundation.turn program) (P := fun ts m =>
    M.Guarded m (ts.flatMap (·.outcome.log)))
  · exact .free released inv not_holding_nil fun w op p busy => by simp [Node.start] at busy
  · intro ts m t guarded
    rw [List.flatMap_append]
    simpa using guarded.turn unnoticed obeys t

end Turns

/-! ## A lock that nobody will release -/

/-- The lock is held, and not by those who still take turns. -/
structure Barred (gone : W → Prop) (n : Node W Op Q A ε) : Prop where
  closed : M.Held (n.store.find M.lock)
  outside : ∀ w, ¬ gone w → ∀ op p, n.running w = some (op, p) → M.Outside w op p

section Abandoned

variable [DecidableEq W] {M} {gone : W → Prop} {n : Node W Op Q A ε} {w : W} {op : Op}
  {p : Program Q A ε Unit} {program : Op → Program Q A ε Unit}

omit [DecidableEq W] in
/-- Who does not hold a held lock can neither take nor leave it, nor do what it protects. -/
theorem Barred.access (barred : M.Barred gone n) (outside : M.Outside w op p) (world : ∀ q, A q)
    (h : List (LogEntry W Op Q)) :
    (p.advance world n.store).2.1.find M.lock = n.store.find M.lock ∧
      M.view (p.advance world n.store).2.1
        (h ++ (p.advance world n.store).2.2.toList.map fun e => ⟨w, op, e⟩) = M.view n.store h ∧
      M.Outside w op (p.advance world n.store).1 := by
  cases p with
  | done a => exact ⟨rfl, by simp [Program.advance], outside⟩
  | fail e => exact ⟨rfl, by simp [Program.advance], outside⟩
  | get key next =>
      unfold Outside at outside
      exact ⟨rfl, by simp [Program.advance], outside _⟩
  | set key value next =>
      unfold Outside at outside
      obtain ⟨other, silent, outside⟩ := outside
      exact ⟨by simp [Program.advance, Ne.symm other], silent n.store h, outside⟩
  | ask q next =>
      unfold Outside at outside
      exact ⟨rfl, outside.1 n.store h, outside.2 (world q)⟩
  | compareAndSet key old new next =>
      unfold Outside at outside
      obtain ⟨acquires, missed⟩ := outside
      by_cases same : n.store.find key = old
      · have other : key ≠ M.lock := by
          rintro rfl
          rw [if_pos rfl, ← same] at acquires
          exact acquires.1 barred.closed
        rw [if_neg other] at acquires
        simp only [Program.advance, if_pos same]
        exact ⟨by simp [Ne.symm other], acquires.1 n.store h, acquires.2⟩
      · simp only [Program.advance, if_neg same]
        exact ⟨trivial, by simp, missed⟩

theorem Barred.resume (barred : M.Barred gone n) {store : LocalStorage}
    (cell : store.find M.lock = n.store.find M.lock) (outside : M.Outside w op p) :
    M.Barred gone ({ n with store := store }.resume w op p) where
  closed := by simpa [cell] using barred.closed
  outside w' stays op' p' busy := by
    rcases Node.running_resume busy with ⟨rfl, rfl, rfl⟩ | ⟨_, busy⟩
    · exact outside
    · exact barred.outside w' stays op' p' busy

theorem Barred.turn (barred : M.Barred gone n) (obeys : ∀ w op, M.Outside w op (program op))
    {t : Turn W Op Q A} (stays : ∀ w world, t = .go w world → ¬ gone w)
    (h : List (LogEntry W Op Q)) :
    M.Barred gone (fire (Foundation.turn program) n t).after ∧
      M.view (fire (Foundation.turn program) n t).after.store
        (h ++ (fire (Foundation.turn program) n t).outcome.log) = M.view n.store h := by
  cases t with
  | begin w op =>
      by_cases idle : n.idle w = true
      · simpa [fire, Transition.after, idle] using barred.resume rfl (obeys w op)
      · simpa [fire, Transition.after, idle] using barred
  | go w world =>
      cases busy : n.running w with
      | none => simpa [fire, Transition.after, run_turn_go_idle program busy world] using barred
      | some slot =>
          obtain ⟨op, p⟩ := slot
          have outside := barred.outside w (stays w world rfl) op p busy
          obtain ⟨cell, view, outside⟩ := barred.access outside world h
          simp only [fire, Transition.after, run_turn_go program busy world]
          exact ⟨barred.resume cell outside, view⟩

/-- What a held lock protects stays as it is as long as nobody is there to release it. -/
theorem Barred.exec (barred : M.Barred gone n) (obeys : ∀ w op, M.Outside w op (program op))
    {turns : List (Turn W Op Q A)} (stays : ∀ w world, .go w world ∈ turns → ¬ gone w)
    (h : List (LogEntry W Op Q)) :
    M.Barred gone (exec (Foundation.turn program) n turns).final ∧
      M.view (exec (Foundation.turn program) n turns).final.store
        (h ++ history program n turns) = M.view n.store h := by
  induction turns using List.reverseRecOn with
  | nil => simpa [history] using barred
  | append_singleton turns t ih =>
      obtain ⟨before, view⟩ := ih fun w world mem => stays w world (by simp [mem])
      obtain ⟨after, same⟩ := before.turn obeys (t := t)
        (fun w world now => stays w world (by simp [now])) (h ++ history program n turns)
      rw [exec_concat]
      refine ⟨after, ?_⟩
      rw [← view, ← same]
      simp [history]

end Abandoned

end Monitor

end AbcDemo.Foundation
