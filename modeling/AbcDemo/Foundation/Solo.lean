import AbcDemo.Foundation.Monitor

/-! # A worker whose turn it stays

A program that nobody comes between comes to an end, however it is answered. It
is examined against what is to hold then of its result and the storage. A lock
that was free before it is free again behind it.
-/

namespace AbcDemo.Foundation

variable {W Op Q V : Type} {A : Q → Type} {ε ε' α β : Type}

namespace Program

/-- However it is answered, the program comes from this storage to `post`. -/
def Ends (post : Except ε α → LocalStorage → Prop) : Program Q A ε α → LocalStorage → Prop
  | .done a, store => post (.ok a) store
  | .fail e, store => post (.error e) store
  | .get key next, store => Ends post (next (store.find key)) store
  | .set key value next, store => Ends post next (store.insert key value)
  | .compareAndSet key old new next, store =>
      if store.find key = old then Ends post (next true) (store.insert key new)
      else Ends post (next false) store
  | .ask _ next, store => ∀ answer, Ends post (next answer) store

section Rules

variable {x : Program Q A ε α} {f : α → Program Q A ε β} {store : LocalStorage}

theorem Ends.weaken {post post' : Except ε α → LocalStorage → Prop} (hx : x.Ends post store)
    (weaker : ∀ r store, post r store → post' r store) : x.Ends post' store := by
  induction x generalizing store with
  | done a => exact weaker _ _ hx
  | fail e => exact weaker _ _ hx
  | get key next ih => exact ih _ hx
  | set key value next ih => exact ih hx
  | compareAndSet key old new next ih =>
      unfold Ends at hx ⊢
      split at hx
      · rw [if_pos ‹_›]
        exact ih true hx
      · rw [if_neg ‹_›]
        exact ih false hx
  | ask q next ih => exact fun answer => ih answer (hx answer)

theorem Ends.conclude {k : Except ε α → Program Q A ε' β}
    {post : Except ε' β → LocalStorage → Prop}
    (hx : x.Ends (fun r store => (k r).Ends post store) store) :
    (x.conclude k).Ends post store := by
  induction x generalizing store with
  | done a => exact hx
  | fail e => exact hx
  | get key next ih => exact ih _ hx
  | set key value next ih => exact ih hx
  | compareAndSet key old new next ih =>
      unfold Ends at hx
      unfold Program.conclude Ends
      split at hx
      · rw [if_pos ‹_›]
        exact ih true hx
      · rw [if_neg ‹_›]
        exact ih false hx
  | ask q next ih => exact fun answer => ih answer (hx answer)

theorem Ends.bind {post : Except ε β → LocalStorage → Prop}
    (hx : x.Ends (fun r store => match r with
      | .ok a => (f a).Ends post store
      | .error e => post (.error e) store) store) : (x >>= f).Ends post store := by
  rw [bind_eq_conclude]
  apply Ends.conclude
  apply hx.weaken
  intro r store h
  cases r <;> exact h

theorem Ends.discard {post : Except ε' Unit → LocalStorage → Prop}
    (hx : x.Ends (fun _ store => post (.ok ()) store) store) :
    (x.discard : Program Q A ε' Unit).Ends post store := by
  unfold Program.discard
  apply Ends.bind
  rw [attempt_eq_conclude]
  exact Ends.conclude hx

theorem ends_get {Q' T : Type} {A' : Q' → Type} [Codec T] {ref : StorageValueRef}
    {f : Option (Option T) → Program Q' A' ε' α} {handler : ∀ q, Program Q A ε (A' q)}
    {onError : ε' → ε} {post : Except ε α → LocalStorage → Prop}
    (hf : ((f ((store.find ref.key).map Codec.decode)).translate handler onError).Ends post store) :
    ((ref.get T >>= f).translate handler onError).Ends post store :=
  hf

end Rules

end Program

namespace Monitor

variable {M : Monitor W Op Q V} {w : W} {op : Op} {x : Program Q A ε α}

/-- Who finds the lock free, or holds it, leaves it free in the end. -/
theorem ends_outside_inside (unnoticed : M.Unnoticed) :
    (M.Outside w op x → ∀ store h, ¬ M.Held (store.find M.lock) → M.Inv (M.view store h) →
        x.Ends (fun _ store => ¬ M.Held (store.find M.lock)) store) ∧
      ∀ store h, M.Inside w op x (M.view store h) →
        x.Ends (fun _ store => ¬ M.Held (store.find M.lock)) store := by
  induction x with
  | done a =>
      exact ⟨fun _ _ _ free _ => free, fun _ _ inside => absurd inside (by simp [Inside])⟩
  | fail e =>
      exact ⟨fun _ _ _ free _ => free, fun _ _ inside => absurd inside (by simp [Inside])⟩
  | get key next ih =>
      simp only [Outside, Inside, Program.Ends]
      exact ⟨fun outside store h free inv => (ih _).1 (outside _) store h free inv,
        fun store h inside => (ih _).2 store h (inside store h rfl)⟩
  | ask q next ih =>
      simp only [Outside, Inside, Program.Ends]
      constructor
      · intro outside store h free inv answer
        exact (ih answer).1 (outside.2 answer) store _ free (outside.1 store h ▸ inv)
      · exact fun store h inside answer => (ih answer).2 store _ (inside answer store h rfl)
  | set key value next ih =>
      simp only [Outside, Inside, Program.Ends]
      constructor
      · intro quiet store h free inv
        have same := quiet.2.1 store h
        exact ih.1 quiet.2.2 _ _ (by simpa [Ne.symm quiet.1] using free) (same ▸ inv)
      · intro store h inside
        by_cases released : key = M.lock
        · rw [if_pos released] at inside
          obtain ⟨left, inv, outside⟩ := inside
          subst released
          have same := unnoticed.released w op value store h
          exact ih.1 outside _ _ (by simpa using left) (same ▸ inv)
        · rw [if_neg released] at inside
          exact ih.2 _ _ (inside store h rfl)
  | compareAndSet key old new next ih =>
      simp only [Outside, Inside, Program.Ends]
      refine ⟨fun outside store h free inv => ?_, fun _ _ inside => inside.elim⟩
      by_cases found : store.find key = old
      · rw [if_pos found]
        by_cases acquired : key = M.lock
        · have acquires := outside.1
          rw [if_pos acquired] at acquires
          subst acquired
          have same := unnoticed.acquired w op new store h
          exact (ih true).2 _ _ (acquires.2.2 _ (same ▸ inv))
        · have passes := outside.1
          rw [if_neg acquired] at passes
          have same := passes.1 store h
          exact (ih true).1 passes.2 _ _ (by simpa [Ne.symm acquired] using free) (same ▸ inv)
      · rw [if_neg found]
        exact (ih false).1 outside.2 store h free inv

theorem Outside.ends (unnoticed : M.Unnoticed) (outside : M.Outside w op x) {store : LocalStorage}
    {h : List (LogEntry W Op Q)} (free : ¬ M.Held (store.find M.lock))
    (inv : M.Inv (M.view store h)) :
    x.Ends (fun _ store => ¬ M.Held (store.find M.lock)) store :=
  (ends_outside_inside unnoticed).1 outside store h free inv

end Monitor

/-! ## The turns of one worker -/

section Turns

variable [DecidableEq W] (program : Op → Program Q A ε Unit) (w : W)

/-- The next turns, all of the same worker. -/
def solo (answers : Nat → ∀ q, A q) (j : Nat) : List (Turn W Op Q A) :=
  (List.range j).map fun i => .go w (answers i)

omit [DecidableEq W] in
theorem solo_succ (answers : Nat → ∀ q, A q) (j : Nat) :
    (solo w answers (j + 1) : List (Turn W Op Q A)) =
      .go w (answers 0) :: solo w (fun i => answers (i + 1)) j := by
  simp [solo, List.range_succ_eq_map]

variable {program w} {n : Node W Op Q A ε} {op : Op} {p : Program Q A ε Unit}

/-- A worker that has stopped stays where it is. -/
theorem exec_solo_stopped (busy : n.running w = some (op, p)) (stopped : p.stopped = true)
    (answers : Nat → ∀ q, A q) (j : Nat) :
    (exec (turn program) n (solo w answers j)).final = n := by
  induction j generalizing answers with
  | zero => rfl
  | succ j ih =>
      have still (world : ∀ q, A q) : n.advance w op p world = n := by
        cases n
        cases p <;> simp_all [Program.stopped, Node.advance, Program.advance, Node.resume]
      rw [solo_succ, exec]
      simp only [fire, Transition.after, run_turn_go program busy, still]
      exact ih _

/-- After finitely many turns of its own, `w` is at the end of its operation, and at `post`. -/
def ComesTo (program : Op → Program Q A ε Unit) (w : W) (post : LocalStorage → Prop)
    (n : Node W Op Q A ε) (answers : Nat → ∀ q, A q) : Prop :=
  ∃ k, ∀ j, k ≤ j →
    let m := (exec (turn program) n (solo w answers j)).final
    m.idle w = true ∧ post m.store

theorem ComesTo.stopped {post : LocalStorage → Prop} (busy : n.running w = some (op, p))
    (stopped : p.stopped = true) (reached : post n.store) (answers : Nat → ∀ q, A q) :
    ComesTo program w post n answers := by
  refine ⟨0, fun j _ => ?_⟩
  rw [exec_solo_stopped busy stopped]
  exact ⟨by simp [Node.idle, busy, stopped], reached⟩

theorem ComesTo.turn {post : LocalStorage → Prop} (busy : n.running w = some (op, p))
    {answers : Nat → ∀ q, A q}
    (rest : ComesTo program w post (n.advance w op p (answers 0)) fun i => answers (i + 1)) :
    ComesTo program w post n answers := by
  obtain ⟨k, hk⟩ := rest
  refine ⟨k + 1, fun j hj => ?_⟩
  cases j with
  | zero => omega
  | succ j =>
      have reached := hk j (by omega)
      rw [solo_succ, exec]
      simpa only [fire, Transition.after, run_turn_go program busy] using reached

theorem comesTo_of_ends (busy : n.running w = some (op, p))
    {post : Except ε Unit → LocalStorage → Prop} (ends : p.Ends post n.store)
    (answers : Nat → ∀ q, A q) :
    ComesTo program w (fun store => ∃ r, post r store) n answers := by
  induction p generalizing n answers with
  | done a => exact .stopped busy rfl ⟨_, ends⟩ answers
  | fail e => exact .stopped busy rfl ⟨_, ends⟩ answers
  | get key next ih => exact .turn busy (ih _ (Node.resume_running_self ..) ends _)
  | set key value next ih =>
      let written : Node W Op Q A ε := { n with store := n.store.insert key value }
      exact .turn busy (ih (Node.resume_running_self written w op next) ends _)
  | ask q next ih => exact .turn busy (ih _ (Node.resume_running_self ..) (ends _) _)
  | compareAndSet key old new next ih =>
      apply ComesTo.turn busy
      unfold Program.Ends at ends
      by_cases found : n.store.find key = old
      · rw [if_pos found] at ends
        let swapped : Node W Op Q A ε := { n with store := n.store.insert key new }
        simp only [Node.advance, Program.advance, if_pos found]
        exact ih true (Node.resume_running_self swapped w op (next true)) ends _
      · rw [if_neg found] at ends
        simp only [Node.advance, Program.advance, if_neg found]
        exact ih false (Node.resume_running_self ..) ends _

end Turns

end AbcDemo.Foundation
