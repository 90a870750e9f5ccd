import AbcDemo.Foundation.Execution

/-! # Reordering inputs with different keys

When steps with different keys commute up to an observational relation on
states, a run may be reordered as long as the inputs of each key keep their
order: the answers are the same ones, and the final states are related.
-/

namespace AbcDemo.Foundation

variable {ι K : Type}

/-! ## Reordered lists -/

section Lists

variable (key : ι → K)

/-- Exchanges of neighbours with different keys. -/
inductive Reorders : List ι → List ι → Prop where
  | refl (is : List ι) : Reorders is is
  | cons (i : ι) {is js : List ι} (h : Reorders is js) : Reorders (i :: is) (i :: js)
  | swap {i j : ι} (hne : key i ≠ key j) (is : List ι) : Reorders (i :: j :: is) (j :: i :: is)
  | trans {is js ks : List ι} (h : Reorders is js) (h' : Reorders js ks) : Reorders is ks

/-- A permutation that keeps the relative order of the entries of each key. -/
structure KeepsOrder [DecidableEq K] (is js : List ι) : Prop where
  perm : is.Perm js
  order : ∀ k, (is.filter fun i => key i = k) = js.filter fun i => key i = k

variable {key}

/-- An entry moves past entries with other keys. -/
theorem reorders_cons_append {i : ι} (is js : List ι) (hne : ∀ j ∈ is, key i ≠ key j) :
    Reorders key (i :: (is ++ js)) (is ++ i :: js) := by
  induction is with
  | nil => exact .refl _
  | cons j is ih =>
      have head := hne j List.mem_cons_self
      have tail := ih fun k hk => hne k (List.mem_cons_of_mem j hk)
      exact (Reorders.swap head (is ++ js)).trans (.cons j tail)

theorem reorders_of_keepsOrder [DecidableEq K] {is js : List ι} (h : KeepsOrder key is js) :
    Reorders key is js := by
  induction is generalizing js with
  | nil =>
      rw [← h.perm.nil_eq]
      exact .refl []
  | cons i is ih =>
      -- the first entry of its key in `js` is `i` itself
      have first := h.order (key i)
      rw [List.filter_cons_of_pos (by simp)] at first
      obtain ⟨js₁, js₂, rfl, others, _, _⟩ := List.filter_eq_cons_iff.mp first.symm
      have others : ∀ j ∈ js₁, key i ≠ key j := fun j hj => by simpa [eq_comm] using others j hj
      have rest : KeepsOrder key is (js₁ ++ js₂) := by
        constructor
        · exact (h.perm.trans List.perm_middle).cons_inv
        · intro k
          have order := h.order k
          by_cases hk : key i = k
          · subst hk
            have none : (js₁.filter fun j => key j = key i) = [] :=
              List.filter_eq_nil_iff.mpr fun j hj => by simpa [eq_comm] using others j hj
            simpa [none] using order
          · simpa [hk] using order
      exact (Reorders.cons i (ih rest)).trans (reorders_cons_append js₁ js₂ others)

end Lists

/-! ## Commuting steps -/

section Steps

variable {σ ω ε : Type} (step : ι → Dispatch σ ω ε Unit) (key : ι → K)

/-- What a run answered to its inputs, in order. -/
def answers (s : σ) (is : List ι) : List (ι × Except ε Unit) :=
  (exec step s is).transitions.map fun t => (t.input, t.outcome.result)

@[simp] theorem answers_cons (s : σ) (i : ι) (is : List ι) :
    answers step s (i :: is) =
      (i, (fire step s i).outcome.result) :: answers step (fire step s i).after is := rfl

/-- States related by `R` answer the same and stay related, and two steps with
different keys do not notice each other. -/
structure CommutesUpTo (R : σ → σ → Prop) : Prop where
  refl : ∀ s, R s s
  trans : ∀ {s s' s''}, R s s' → R s' s'' → R s s''
  congr : ∀ {s s'} (i : ι), R s s' →
    (fire step s' i).outcome.result = (fire step s i).outcome.result ∧
      R (fire step s i).after (fire step s' i).after
  unnoticed : ∀ (s : σ) {i j : ι}, key i ≠ key j →
    (fire step (fire step s i).after j).outcome.result = (fire step s j).outcome.result
  commute : ∀ (s : σ) {i j : ι}, key i ≠ key j →
    R (fire step (fire step s i).after j).after (fire step (fire step s j).after i).after

variable {step key} {R : σ → σ → Prop}

/-- Related states give related runs with the same answers. -/
theorem CommutesUpTo.run_congr (h : CommutesUpTo step key R) {s s' : σ} (hs : R s s')
    (is : List ι) :
    answers step s' is = answers step s is ∧ R (exec step s is).final (exec step s' is).final := by
  induction is generalizing s s' with
  | nil => exact ⟨rfl, hs⟩
  | cons i is ih =>
      obtain ⟨result, after⟩ := h.congr i hs
      obtain ⟨rest, final⟩ := ih after
      exact ⟨by rw [answers_cons, answers_cons, result, rest], final⟩

theorem CommutesUpTo.run_reorders [DecidableEq K] (h : CommutesUpTo step key R) {is js : List ι}
    (reorders : Reorders key is js) (s : σ) :
    (∀ k, ((answers step s is).filter fun a => key a.1 = k) =
        (answers step s js).filter fun a => key a.1 = k) ∧
      R (exec step s is).final (exec step s js).final := by
  induction reorders generalizing s with
  | refl is => exact ⟨fun k => rfl, h.refl _⟩
  | cons i _ ih =>
      obtain ⟨rest, final⟩ := ih (fire step s i).after
      refine ⟨fun k => ?_, final⟩
      simp only [answers_cons, List.filter_cons, rest k]
  | @swap i j hne is =>
      obtain ⟨rest, final⟩ := h.run_congr (h.commute s hne) is
      refine ⟨fun k => ?_, final⟩
      simp only [answers_cons, h.unnoticed s hne, h.unnoticed s hne.symm, rest]
      by_cases hi : key i = k
      · have hj : key j ≠ k := fun hj => hne (hi.trans hj.symm)
        simp [hi, hj]
      · simp [List.filter_cons, hi]
  | trans _ _ ih ih' =>
      obtain ⟨first, middle⟩ := ih s
      obtain ⟨second, final⟩ := ih' s
      exact ⟨fun k => (first k).trans (second k), h.trans middle final⟩

end Steps

end AbcDemo.Foundation
