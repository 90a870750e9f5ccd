import Mathlib.Data.List.Basic
import AbcDemo.Foundation.Dispatch

/-! # Loops that end at the first failure

A loop whose rounds go on for some elements and stop the program at others
reports what its rounds report up to the first stop. What it reaches is a
`takeWhile`, and the lemmas on lists say when that is as good as the whole list.
-/

namespace AbcDemo.Foundation

/-! ## What a stopping loop reports -/

namespace Dispatch

variable {σ ω ε α β : Type}

/-- Rounds go on exactly for `p` and keep `P`; of their observations, `see` is
looked at. -/
theorem run_forM_stopping {p : α → Bool} {P : σ → Prop} {f : α → Dispatch σ ω ε Unit}
    {see : ω → Option β} {report : α → List β}
    (goes : ∀ a s, P s → p a = true →
      ∃ s' w, (f a).run s = ⟨.ok (), s', w⟩ ∧ P s' ∧ w.filterMap see = report a)
    (stops : ∀ a s, P s → p a = false → ∃ e, (f a).run s = ⟨.error e, s, []⟩)
    (xs : List α) {s : σ} (hs : P s) :
    ((forM xs f).run s).log.filterMap see = (xs.takeWhile p).flatMap report := by
  induction xs generalizing s with
  | nil => rfl
  | cons a xs ih =>
      cases hp : p a with
      | false =>
          obtain ⟨e, stop⟩ := stops a s hs hp
          simp [hp, stop]
      | true =>
          obtain ⟨s', w, go, kept, seen⟩ := goes a s hs hp
          have rest := ih kept
          simp only [List.forM_cons, run_bind, go, andThen_ok, List.takeWhile_cons, hp, ↓reduceIte,
            List.flatMap_cons]
          rw [Outcome.prepend, List.filterMap_append, seen, rest]

/-- Rounds go on exactly for `p`, by `next` and with what they `report`, and keep `P`. -/
theorem run_forM_until {p : α → Bool} {P : σ → Prop} {f : α → Dispatch σ ω ε Unit}
    (next : σ → α → σ) (report : α → List ω)
    (goes : ∀ a s, P s → p a = true → (f a).run s = ⟨.ok (), next s a, report a⟩ ∧ P (next s a))
    (stops : ∀ a s, P s → p a = false → ∃ e, (f a).run s = ⟨.error e, s, []⟩)
    (xs : List α) {s : σ} (hs : P s) :
    ((forM xs f).run s).log = (xs.takeWhile p).flatMap report ∧
      ((forM xs f).run s).after = (xs.takeWhile p).foldl next s := by
  induction xs generalizing s with
  | nil => exact ⟨rfl, rfl⟩
  | cons a xs ih =>
      cases hp : p a with
      | false =>
          obtain ⟨e, stop⟩ := stops a s hs hp
          simp [hp, stop]
      | true =>
          obtain ⟨go, kept⟩ := goes a s hs hp
          obtain ⟨reports, ends⟩ := ih kept
          simp only [List.forM_cons, run_bind, go, andThen_ok, List.takeWhile_cons, hp, ↓reduceIte,
            List.flatMap_cons, List.foldl_cons]
          exact ⟨by rw [Outcome.prepend, reports], ends⟩

/-- Rounds that always go on and change nothing report one after another. -/
theorem run_forM_report {f : α → Dispatch σ ω ε Unit} {report : α → List ω} {s : σ}
    (goes : ∀ a, (f a).run s = ⟨.ok (), s, report a⟩) (xs : List α) :
    (forM xs f).run s = ⟨.ok (), s, xs.flatMap report⟩ := by
  induction xs with
  | nil => rfl
  | cons a xs ih => simp [goes, ih]

end Dispatch

/-! ## What the loop reaches -/

variable {α β : Type}

/-- The positions of a list are its head and those of its tail. -/
theorem forall_split_cons_iff {P : List α → α → Prop} (a : α) (xs : List α) :
    (∀ pre x post, a :: xs = pre ++ x :: post → P pre x) ↔
      P [] a ∧ ∀ pre x post, xs = pre ++ x :: post → P (a :: pre) x := by
  constructor
  · intro h
    exact ⟨h [] a xs rfl, fun pre x post hxs => h (a :: pre) x post (by rw [hxs]; rfl)⟩
  · rintro ⟨head, tail⟩ pre x post hxs
    cases pre with
    | nil =>
        cases hxs
        exact head
    | cons b pre =>
        cases hxs
        exact tail pre x post rfl

theorem all_of_all_concat {p : α → Bool} {xs : List α} {a : α} (h : (xs ++ [a]).all p = true) :
    xs.all p = true := by
  rw [List.all_append, Bool.and_eq_true] at h
  exact h.1

/-- A further element is reached when nothing before it fails, nor itself. -/
theorem takeWhile_concat (p : α → Bool) (xs : List α) (a : α) :
    (xs ++ [a]).takeWhile p =
      if (xs ++ [a]).all p then xs.takeWhile p ++ [a] else xs.takeWhile p := by
  induction xs with
  | nil => cases ha : p a <;> simp [ha]
  | cons x xs ih =>
      cases hx : p x with
      | false => simp [hx]
      | true =>
          simp only [List.cons_append, List.takeWhile_cons, hx, ↓reduceIte, ih, List.all_cons,
            Bool.true_and]
          split <;> rfl

/-- Laws about the positions of a list may be exchanged when, at each position, they
say the same as long as the first one has held before. -/
theorem forall_split_congr {P Q : List α → α → Prop} {xs : List α}
    (h : ∀ pre x post, xs = pre ++ x :: post →
      (∀ pre' y post', pre = pre' ++ y :: post' → P pre' y) → (P pre x ↔ Q pre x)) :
    (∀ pre x post, xs = pre ++ x :: post → P pre x) ↔
      ∀ pre x post, xs = pre ++ x :: post → Q pre x := by
  constructor
  · intro hP pre x post hxs
    have earlier : ∀ pre' y post', pre = pre' ++ y :: post' → P pre' y :=
      fun pre' y post' hpre => hP pre' y (post' ++ x :: post) (by simp [hxs, hpre])
    exact (h pre x post hxs earlier).mp (hP pre x post hxs)
  · intro hQ pre
    -- by induction on the position, which the earlier ones come before
    induction hn : pre.length using Nat.strongRecOn generalizing pre with
    | ind n ih =>
        intro x post hxs
        apply (h pre x post hxs ?_).mpr (hQ pre x post hxs)
        intro pre' y post' hpre
        have shorter : pre'.length < n := by
          rw [← hn, hpre]
          simp
        exact ih pre'.length shorter pre' rfl y (post' ++ x :: post) (by simp [hxs, hpre])

/-- Where the whole list comes after a failure of `p`, `r` must hold nowhere in it. -/
theorem filter_eq_nil_iff_positions {p q r : α → Bool} {a : α} (hp : p a = false) (xs : List α) :
    xs.filter r = [] ↔
      ∀ pre x post, xs = pre ++ x :: post → r x = true →
        (∀ u ∈ a :: pre, p u = true) ∧ q x = true := by
  constructor
  · intro none pre x post hxs hx
    have hmem : x ∈ xs.filter r := List.mem_filter.mpr ⟨by simp [hxs], hx⟩
    rw [none] at hmem
    cases hmem
  · intro positions
    apply List.filter_eq_nil_iff.mpr
    intro x hx hrx
    obtain ⟨pre, post, hxs⟩ := List.append_of_mem hx
    have before := (positions pre x post hxs hrx).1 a List.mem_cons_self
    rw [hp] at before
    cases before

theorem filter_takeWhile_sublist (p q r : α → Bool) (xs : List α) :
    ((xs.takeWhile p).filter fun x => r x && q x).Sublist (xs.filter r) :=
  ((List.takeWhile_sublist p).filter _).trans
    (List.monotone_filter_right xs fun _ hx => (Bool.and_eq_true_iff.mp hx).1)

/-- Filtering what comes before the first failure of `p` finds all of `r` exactly
when no failure of `p` comes before one of `r`, and all of `r` satisfies `q`. -/
theorem filter_takeWhile_eq_iff {p q r : α → Bool} (hr : ∀ x, r x = true → p x = true)
    (xs : List α) :
    ((xs.takeWhile p).filter fun x => r x && q x) = xs.filter r ↔
      ∀ pre x post, xs = pre ++ x :: post → r x = true →
        (∀ u ∈ pre, p u = true) ∧ q x = true := by
  induction xs with
  | nil => simp
  | cons a xs ih =>
      rw [forall_split_cons_iff]
      cases hp : p a with
      | false =>
          have ha : r a = false := by
            cases h : r a with
            | false => rfl
            | true => rw [hr a h] at hp; cases hp
          rw [← filter_eq_nil_iff_positions hp xs]
          simp only [List.takeWhile_cons, hp, List.filter_cons, ha, Bool.false_eq_true, ↓reduceIte,
            List.filter_nil, false_implies, true_and]
          exact eq_comm
      | true =>
          simp only [List.takeWhile_cons, hp, ↓reduceIte, List.filter_cons, List.forall_mem_cons,
            true_and]
          rw [← ih]
          cases ha : r a with
          | false => simp
          | true =>
              cases hq : q a with
              | true => simp
              | false =>
                  constructor
                  · intro same
                    have short := (filter_takeWhile_sublist p q r xs).length_le
                    simp only [Bool.and_false, Bool.false_eq_true, ↓reduceIte] at same
                    rw [same, List.length_cons] at short
                    omega
                  · intro positions
                    have := positions.1 rfl
                    simp at this

theorem flatMap_filter_of_nil {k : α → Bool} {f : α → List β} {xs : List α}
    (h : ∀ x ∈ xs, k x = false → f x = []) : (xs.filter k).flatMap f = xs.flatMap f := by
  induction xs with
  | nil => rfl
  | cons a xs ih =>
      rw [List.forall_mem_cons] at h
      cases hk : k a with
      | true => simp [hk, ih h.2]
      | false => simp [hk, ih h.2, h.1 hk]

theorem flatMap_ite_singleton (k : α → Bool) (f : α → β) (xs : List α) :
    (xs.flatMap fun x => if k x = true then [f x] else []) = (xs.filter k).map f := by
  induction xs with
  | nil => rfl
  | cons a xs ih => cases hk : k a <;> simp [hk, ih]

end AbcDemo.Foundation
