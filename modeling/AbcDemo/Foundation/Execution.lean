import Mathlib.Algebra.Ring.Nat
import Mathlib.Data.List.DropRight
import AbcDemo.Foundation.Dispatch

/-! # Exact runs of a deterministic service and their histories

A run applies one input after another and keeps every transition with the
state it started from and the outcome it had, failures included. Invariants
and history laws are proved once here by induction on the last input. The
history operators read a finite past: the part since a reset, and the last
write to a cell.
-/

namespace AbcDemo.Foundation

/-! ## Runs -/

structure Transition (σ ι ω ε : Type) where
  before : σ
  input : ι
  outcome : Outcome σ ω ε Unit

def Transition.after {σ ι ω ε : Type} (t : Transition σ ι ω ε) : σ := t.outcome.after

@[simp] theorem Transition.after_mk {σ ι ω ε : Type} (s : σ) (i : ι) (o : Outcome σ ω ε Unit) :
    (Transition.mk s i o).after = o.after := rfl

structure Run (σ ι ω ε : Type) where
  final : σ
  transitions : List (Transition σ ι ω ε)

section Runs

variable {σ ι ω ε : Type} (step : ι → Dispatch σ ω ε Unit)

def fire (s : σ) (i : ι) : Transition σ ι ω ε := ⟨s, i, (step i).run s⟩

def exec (s : σ) : List ι → Run σ ι ω ε
  | [] => ⟨s, []⟩
  | i :: is =>
      let rest := exec (fire step s i).after is
      ⟨rest.final, fire step s i :: rest.transitions⟩

@[simp] theorem fire_before (s : σ) (i : ι) : (fire step s i).before = s := rfl

@[simp] theorem fire_input (s : σ) (i : ι) : (fire step s i).input = i := rfl

@[simp] theorem exec_nil (s : σ) : exec step s [] = ⟨s, []⟩ := rfl

theorem exec_append (s : σ) (is js : List ι) :
    exec step s (is ++ js) =
      ⟨(exec step (exec step s is).final js).final,
        (exec step s is).transitions ++ (exec step (exec step s is).final js).transitions⟩ := by
  induction is generalizing s with
  | nil => rfl
  | cons i is ih => simp [exec, ih]

@[simp] theorem exec_concat (s : σ) (is : List ι) (i : ι) :
    exec step s (is ++ [i]) =
      ⟨(fire step (exec step s is).final i).after,
        (exec step s is).transitions ++ [fire step (exec step s is).final i]⟩ := by
  rw [exec_append]
  rfl

theorem exec_transitions_append_cons (s : σ) (is₁ : List ι) (i : ι) (is₂ : List ι) :
    (exec step s (is₁ ++ i :: is₂)).transitions =
      (exec step s is₁).transitions ++ fire step (exec step s is₁).final i ::
        (exec step (fire step (exec step s is₁).final i).after is₂).transitions := by
  rw [exec_append]
  rfl

/-- A position in the transitions is a position in the inputs, with the exact
run that led to it and the exact run that followed. -/
theorem exec_split {s : σ} {is : List ι} {pre post : List (Transition σ ι ω ε)}
    {t : Transition σ ι ω ε} (h : (exec step s is).transitions = pre ++ t :: post) :
    ∃ is₁ is₂, is = is₁ ++ t.input :: is₂ ∧ exec step s is₁ = ⟨t.before, pre⟩ ∧
      t = fire step t.before t.input ∧ exec step t.after is₂ = ⟨(exec step s is).final, post⟩ := by
  induction pre generalizing s is with
  | nil =>
      cases is with
      | nil => simp at h
      | cons i is =>
          simp only [exec, List.nil_append, List.cons.injEq] at h
          rcases h with ⟨rfl, rfl⟩
          exact ⟨[], is, rfl, rfl, rfl, rfl⟩
  | cons u pre ih =>
      cases is with
      | nil => simp at h
      | cons i is =>
          simp only [exec, List.cons_append, List.cons.injEq] at h
          rcases h with ⟨rfl, h⟩
          obtain ⟨is₁, is₂, rfl, hpre, ht, hpost⟩ := ih h
          exact ⟨i :: is₁, is₂, rfl, by simp [exec, hpre], ht, by simpa [exec] using hpost⟩

/-- Likewise for a stretch of transitions. -/
theorem exec_split_append {s : σ} {is : List ι} {pre post : List (Transition σ ι ω ε)}
    (h : (exec step s is).transitions = pre ++ post) :
    ∃ is₁ is₂, is = is₁ ++ is₂ ∧ (exec step s is₁).transitions = pre ∧
      exec step (exec step s is₁).final is₂ = ⟨(exec step s is).final, post⟩ := by
  cases post with
  | nil => exact ⟨is, [], by simp, by simpa using h, rfl⟩
  | cons t post =>
      obtain ⟨is₁, is₂, rfl, hpre, ht, hpost⟩ := exec_split step h
      refine ⟨is₁, t.input :: is₂, rfl, by rw [hpre], ?_⟩
      rw [hpre, exec, ← ht, hpost]

/-- Every transition of a run fired on a state that a prefix of the run reached. -/
theorem exec_mem {s : σ} {is : List ι} {t : Transition σ ι ω ε}
    (h : t ∈ (exec step s is).transitions) :
    t = fire step t.before t.input ∧ ∃ is₁, (exec step s is₁).final = t.before := by
  obtain ⟨pre, post, hsplit⟩ := List.append_of_mem h
  obtain ⟨is₁, _, _, hpre, ht, _⟩ := exec_split step hsplit
  exact ⟨ht, is₁, by rw [hpre]⟩

theorem exec_mem_input {s : σ} {is : List ι} {t : Transition σ ι ω ε}
    (h : t ∈ (exec step s is).transitions) : t.input ∈ is := by
  obtain ⟨pre, post, hsplit⟩ := List.append_of_mem h
  obtain ⟨is₁, is₂, rfl, _⟩ := exec_split step hsplit
  simp

/-! ## Invariant and history rules -/

/-- A law between the past and the present that every step extends. -/
theorem exec_history {P : List (Transition σ ι ω ε) → σ → Prop} {s : σ} (h0 : P [] s)
    (hstep : ∀ ts s i, P ts s → P (ts ++ [fire step s i]) (fire step s i).after)
    (is : List ι) : P (exec step s is).transitions (exec step s is).final := by
  induction is using List.reverseRecOn with
  | nil => exact h0
  | append_singleton is i ih =>
      rw [exec_concat]
      exact hstep _ _ i ih

/-- A law of all runs holds at each point of one run, for the past up to there. -/
theorem exec_law_before {P : List (Transition σ ι ω ε) → σ → Prop} {s : σ}
    (law : ∀ is, P (exec step s is).transitions (exec step s is).final) {is : List ι}
    {pre post : List (Transition σ ι ω ε)} {t : Transition σ ι ω ε}
    (h : (exec step s is).transitions = pre ++ t :: post) : P pre t.before := by
  obtain ⟨is₁, _, _, hpre, _, _⟩ := exec_split step h
  have hlaw := law is₁
  rwa [hpre] at hlaw

theorem exec_invariant {P : σ → Prop} {s : σ} (h0 : P s)
    (hstep : ∀ s i, P s → P (fire step s i).after) (is : List ι) :
    P (exec step s is).final :=
  exec_history step (P := fun _ s => P s) h0 (fun _ s i h => hstep s i h) is

/-- What fires after a prefix of a run is a transition of the run. -/
theorem fire_mem_exec {s : σ} {is is₁ : List ι} {i : ι} (h : is₁ ++ [i] <+: is) :
    fire step (exec step s is₁).final i ∈ (exec step s is).transitions := by
  rcases h with ⟨is₂, rfl⟩
  rw [exec_append, exec_concat]
  simp

/-- A preorder on states relates every state of a run to all later ones exactly
when every step of the run respects it. -/
theorem exec_preorder_iff {R : σ → σ → Prop} (refl : ∀ s, R s s)
    (trans : ∀ {s s' s''}, R s s' → R s' s'' → R s s'') (s : σ) (is : List ι) :
    (∀ is₁ is₂, is₁ ++ is₂ <+: is →
        R (exec step s is₁).final (exec step s (is₁ ++ is₂)).final) ↔
      ∀ t ∈ (exec step s is).transitions, R t.before t.after := by
  constructor
  · intro h t ht
    obtain ⟨pre, post, hsplit⟩ := List.append_of_mem ht
    obtain ⟨is₁, is₂, rfl, hpre, hfire, _⟩ := exec_split step hsplit
    have hstep := h is₁ [t.input] (by simp)
    rw [exec_concat, hpre, ← hfire] at hstep
    exact hstep
  · intro h is₁ is₂ hprefix
    induction is₂ using List.reverseRecOn with
    | nil => simpa using refl _
    | append_singleton is₂ i ih =>
        rw [← List.append_assoc] at hprefix ⊢
        have hstep := h _ (fire_mem_exec step (s := s) hprefix)
        rw [exec_concat]
        exact trans (ih ((List.prefix_append _ _).trans hprefix)) hstep

/-- What holds in every state of a run holds before and after each of its steps. -/
theorem exec_kept_at {P : σ → Prop} {s : σ} {is : List ι}
    (h : ∀ is₁, is₁ <+: is → P (exec step s is₁).final) {t : Transition σ ι ω ε}
    (ht : t ∈ (exec step s is).transitions) : P t.before ∧ P t.after := by
  obtain ⟨pre, post, hsplit⟩ := List.append_of_mem ht
  obtain ⟨is₁, is₂, rfl, hpre, hfire, _⟩ := exec_split step hsplit
  have before := h is₁ (List.prefix_append _ _)
  have after := h (is₁ ++ [t.input]) (by simp)
  rw [exec_concat] at after
  rw [hpre] at before after
  rw [← hfire] at after
  exact ⟨before, after⟩

/-- What holds at the start holds in every state of a run exactly when every step
of the run keeps it. -/
theorem exec_kept_iff {P : σ → Prop} {s : σ} (hs : P s) (is : List ι) :
    (∀ is₁, is₁ <+: is → P (exec step s is₁).final) ↔
      ∀ t ∈ (exec step s is).transitions, P t.before → P t.after := by
  constructor
  · exact fun h t ht _ => (exec_kept_at step h ht).2
  · intro h is₁ hprefix
    induction is₁ using List.reverseRecOn with
    | nil => exact hs
    | append_singleton is₁ i ih =>
        rw [exec_concat]
        exact h _ (fire_mem_exec step hprefix) (ih ((List.prefix_append _ _).trans hprefix))

end Runs

/-! ## Histories -/

section Histories

variable {α V : Type}

/-- The part of a history after its last reset. -/
def sinceLast (reset : α → Bool) (ts : List α) : List α :=
  ts.rtakeWhile fun t => !reset t

@[simp] theorem sinceLast_nil (reset : α → Bool) : sinceLast reset [] = [] := rfl

@[simp] theorem sinceLast_concat (reset : α → Bool) (ts : List α) (t : α) :
    sinceLast reset (ts ++ [t]) = if reset t then [] else sinceLast reset ts ++ [t] := by
  cases h : reset t <;> simp [sinceLast, h]

theorem sinceLast_suffix (reset : α → Bool) (ts : List α) : sinceLast reset ts <:+ ts :=
  List.rtakeWhile_suffix _ _

/-- Counting is summing indicators. -/
theorem sum_map_indicator (p : α → Bool) (ts : List α) :
    (ts.map fun t => if p t then 1 else 0).sum = ts.countP p := by
  induction ts with
  | nil => rfl
  | cons t ts ih => simp [List.countP_cons, ih, Nat.add_comm]

/-- Something of kind `P` happened. -/
def Occurs (P : α → Prop) (ts : List α) : Prop := ∃ t ∈ ts, P t

@[simp] theorem occurs_nil (P : α → Prop) : ¬ Occurs P [] := by
  simp [Occurs]

@[simp] theorem occurs_concat (P : α → Prop) (ts : List α) (t : α) :
    Occurs P (ts ++ [t]) ↔ Occurs P ts ∨ P t := by
  simp [Occurs, or_and_right, exists_or]

/-- Something of kind `Q` happened after something of kind `P`. -/
def Followed (P Q : α → Prop) (ts : List α) : Prop :=
  ∃ pre u post, ts = pre ++ u :: post ∧ Occurs P pre ∧ Q u

/-- Two ways to split at an element agree at the end of the list or before it. -/
theorem append_singleton_eq_split {ts pre post : List α} {t u : α}
    (h : ts ++ [t] = pre ++ u :: post) :
    (post = [] ∧ pre = ts ∧ u = t) ∨ ∃ post', post = post' ++ [t] ∧ ts = pre ++ u :: post' := by
  rcases List.eq_nil_or_concat post with rfl | ⟨post', w, rfl⟩
  · obtain ⟨rfl, hlast⟩ := List.append_inj' h rfl
    exact .inl ⟨rfl, rfl, by simpa using hlast.symm⟩
  · rw [List.concat_eq_append, ← List.cons_append, ← List.append_assoc] at h
    obtain ⟨rfl, hlast⟩ := List.append_inj' h rfl
    have hw : t = w := by simpa using hlast
    exact .inr ⟨post', by rw [List.concat_eq_append, hw], rfl⟩

@[simp] theorem followed_nil (P Q : α → Prop) : ¬ Followed P Q [] := by
  simp [Followed]

@[simp] theorem followed_concat (P Q : α → Prop) (ts : List α) (t : α) :
    Followed P Q (ts ++ [t]) ↔ Followed P Q ts ∨ (Occurs P ts ∧ Q t) := by
  constructor
  · intro h
    rcases h with ⟨pre, u, post, h, hP, hQ⟩
    rcases append_singleton_eq_split h with ⟨rfl, rfl, rfl⟩ | ⟨post', rfl, rfl⟩
    · exact .inr ⟨hP, hQ⟩
    · exact .inl ⟨pre, u, post', rfl, hP, hQ⟩
  · intro h
    rcases h with ⟨pre, u, post, rfl, hP, hQ⟩ | ⟨hP, hQ⟩
    · exact ⟨pre, u, post ++ [t], by simp, hP, hQ⟩
    · exact ⟨ts, t, [], rfl, hP, hQ⟩

/-- The last value a history wrote to an observed cell. -/
def lastWrite (obs : α → Option V) (ts : List α) : Option V :=
  (ts.filterMap obs).getLast?

@[simp] theorem lastWrite_nil (obs : α → Option V) : lastWrite obs [] = none := rfl

@[simp] theorem lastWrite_concat (obs : α → Option V) (ts : List α) (t : α) :
    lastWrite obs (ts ++ [t]) = (obs t).or (lastWrite obs ts) := by
  cases h : obs t <;> simp [lastWrite, h]

/-- A cell that starts empty is full by a write, and by what that write put there. -/
theorem getD_none_eq_some_iff {w : Option (Option V)} {v : V} :
    w.getD none = some v ↔ w = some (some v) := by
  cases w <;> simp

/-- The last write happened at some position, and nothing wrote after it. -/
theorem lastWrite_eq_some_iff {obs : α → Option V} {ts : List α} {v : V} :
    lastWrite obs ts = some v ↔
      ∃ pre t post, ts = pre ++ t :: post ∧ obs t = some v ∧ ∀ u ∈ post, obs u = none := by
  induction ts using List.reverseRecOn with
  | nil => simp
  | append_singleton ts t ih =>
      rw [lastWrite_concat]
      constructor
      · intro h
        cases ht : obs t with
        | some w =>
            rw [ht] at h
            exact ⟨ts, t, [], rfl, by simpa [ht] using h, by simp⟩
        | none =>
            rw [ht, Option.none_or] at h
            obtain ⟨pre, u, post, rfl, hu, hpost⟩ := ih.mp h
            refine ⟨pre, u, post ++ [t], by simp, hu, ?_⟩
            intro w hw
            rcases List.mem_append.mp hw with hw | hw
            · exact hpost w hw
            · rw [List.mem_singleton.mp hw, ht]
      · intro h
        rcases h with ⟨pre, u, post, hsplit, hu, hpost⟩
        rcases append_singleton_eq_split hsplit with ⟨rfl, rfl, rfl⟩ | ⟨post', rfl, rfl⟩
        · rw [hu, Option.some_or]
        · rw [hpost t (by simp), Option.none_or]
          exact ih.mpr ⟨pre, u, post', rfl, hu, fun x hx => hpost x (by simp [hx])⟩

end Histories

/-! ## Cells that a history determines -/

section Cells

variable {σ ι ω ε V : Type} (step : ι → Dispatch σ ω ε Unit)

/-- A cell that each step either overwrites with an observed value or leaves
alone holds the last value written. -/
theorem exec_cell (cell : σ → V) (writes : Transition σ ι ω ε → Option V)
    (hstep : ∀ s i, cell (fire step s i).after = (writes (fire step s i)).getD (cell s))
    (s : σ) (is : List ι) :
    cell (exec step s is).final =
      (lastWrite writes (exec step s is).transitions).getD (cell s) := by
  induction is using List.reverseRecOn with
  | nil => rfl
  | append_singleton is i ih =>
      rw [exec_concat, lastWrite_concat, hstep, ih]
      cases writes (fire step (exec step s is).final i) <;> rfl

/-- The same for a slot that is only ever filled. -/
theorem exec_slot (slot : σ → Option V) (writes : Transition σ ι ω ε → Option V)
    (hstep : ∀ s i, slot (fire step s i).after = (writes (fire step s i)).or (slot s))
    (s : σ) (is : List ι) :
    slot (exec step s is).final = (lastWrite writes (exec step s is).transitions).or (slot s) := by
  induction is using List.reverseRecOn with
  | nil => rfl
  | append_singleton is i ih => rw [exec_concat, lastWrite_concat, hstep, ih, Option.or_assoc]

/-- A quantity that each step changes by an observed gain and loss. -/
theorem exec_account (held : σ → Nat) (gain loss : Transition σ ι ω ε → Nat)
    (hstep : ∀ s i, held (fire step s i).after + loss (fire step s i) =
      held s + gain (fire step s i))
    (s : σ) (is : List ι) :
    held (exec step s is).final + ((exec step s is).transitions.map loss).sum =
      held s + ((exec step s is).transitions.map gain).sum := by
  induction is using List.reverseRecOn with
  | nil => rfl
  | append_singleton is i ih =>
      have h := hstep (exec step s is).final i
      simp only [exec_concat, List.map_append, List.sum_append, List.map_cons, List.map_nil,
        List.sum_cons, List.sum_nil]
      omega

/-- A list that each step extends by what is observed of it. -/
theorem exec_journal {P : σ → Prop} (keep : ∀ s i, P s → P (fire step s i).after)
    (journal : σ → List V) (entry : Transition σ ι ω ε → Option V)
    (hstep : ∀ s i, P s →
      journal (fire step s i).after = journal s ++ (entry (fire step s i)).toList)
    {s : σ} (hs : P s) (is : List ι) :
    journal (exec step s is).final =
      journal s ++ (exec step s is).transitions.filterMap entry := by
  induction is using List.reverseRecOn with
  | nil => simp
  | append_singleton is i ih =>
      rw [exec_concat, hstep _ i (exec_invariant step hs keep is), ih, List.filterMap_append,
        List.append_assoc]
      cases h : entry (fire step (exec step s is).final i) <;> simp [h]

/-- A quantity that each step may only raise by an observed gain, and that pays
for an observed loss. -/
theorem exec_budget {P : σ → Prop} (keep : ∀ s i, P s → P (fire step s i).after)
    (held : σ → Nat) (gain loss : Transition σ ι ω ε → Nat)
    (hstep : ∀ s i, P s → held (fire step s i).after + loss (fire step s i) ≤
      held s + gain (fire step s i))
    {s : σ} (hs : P s) (is : List ι) :
    held (exec step s is).final + ((exec step s is).transitions.map loss).sum ≤
      held s + ((exec step s is).transitions.map gain).sum := by
  induction is using List.reverseRecOn with
  | nil => exact Nat.le_refl _
  | append_singleton is i ih =>
      have h := hstep (exec step s is).final i (exec_invariant step hs keep is)
      simp only [exec_concat, List.map_append, List.sum_append, List.map_cons, List.map_nil,
        List.sum_cons, List.sum_nil]
      omega

end Cells

end AbcDemo.Foundation
