import Mathlib.Data.List.Forall2
import AbcDemo.Foundation.Evidence
import AbcDemo.Foundation.Loops

/-! # What programs say to the world outside

Seen from outside, a program is the exchanges it has and what it ends with. What
it meets in the storage is up to the other workers, so a program has many
dialogues, each on what was met. The rules below take the dialogues of a program
apart along its text, and the law at the end says that what a worker has said
since it began is a dialogue of its program on what the worker has met,
however it was interrupted.
-/

namespace AbcDemo.Foundation

variable {W Op Q Q' : Type} {A : Q → Type} {A' : Q' → Type} {ε ε' α β : Type}

namespace Program

/-- When it meets this, and nothing more, the program can have these exchanges and end like
this. -/
def Plays (op : Op) :
    Program Q A ε α → List Sight → List (Exchange Op Q A) → Except ε α → Prop
  | .done a, met, es, r => met = [] ∧ es = [] ∧ r = .ok a
  | .fail e, met, es, r => met = [] ∧ es = [] ∧ r = .error e
  | .get key next, met, es, r =>
      ∃ value rest, met = .read key value :: rest ∧ Plays op (next value) rest es r
  | .set _ _ next, met, es, r => Plays op next met es r
  | .compareAndSet key _ _ next, met, es, r =>
      ∃ swapped rest, met = (if swapped then [] else [.changed key]) ++ rest ∧
        Plays op (next swapped) rest es r
  | .ask q next, met, es, r =>
      ∃ answer rest, es = ⟨op, q, answer⟩ :: rest ∧ Plays op (next answer) met rest r

variable {op : Op} {met : List Sight} {es : List (Exchange Op Q A)}

/-! ## Along the text -/

@[simp] theorem plays_done {a : α} {r : Except ε α} :
    (done a : Program Q A ε α).Plays op met es r ↔ met = [] ∧ es = [] ∧ r = .ok a := Iff.rfl

@[simp] theorem plays_fail {e : ε} {r : Except ε α} :
    (fail e : Program Q A ε α).Plays op met es r ↔ met = [] ∧ es = [] ∧ r = .error e := Iff.rfl

/-- The second program speaks after the first, if that has a value. -/
theorem plays_bind {x : Program Q A ε α} {f : α → Program Q A ε β} {r : Except ε β} :
    (x >>= f).Plays op met es r ↔
      (∃ e, r = .error e ∧ x.Plays op met es (.error e)) ∨
        ∃ a met₁ met₂ es₁ es₂, met = met₁ ++ met₂ ∧ es = es₁ ++ es₂ ∧
          x.Plays op met₁ es₁ (.ok a) ∧ (f a).Plays op met₂ es₂ r := by
  induction x generalizing met es with
  | done a =>
      constructor
      · intro h
        exact .inr ⟨a, [], met, [], es, rfl, rfl, ⟨rfl, rfl, rfl⟩, h⟩
      · rintro (⟨e, _, _, _, h⟩ | ⟨a', _, _, _, _, rfl, rfl, ⟨rfl, rfl, h⟩, hf⟩)
        · cases h
        · cases h
          exact hf
  | fail e =>
      constructor
      · rintro ⟨rfl, rfl, rfl⟩
        exact .inl ⟨e, rfl, rfl, rfl, rfl⟩
      · rintro (⟨e', rfl, rfl, rfl, h⟩ | ⟨a, _, _, _, _, _, _, ⟨_, _, h⟩, _⟩)
        · cases h
          exact ⟨rfl, rfl, rfl⟩
        · cases h
  | get key next ih =>
      constructor
      · rintro ⟨value, rest, rfl, h⟩
        rcases (ih value).mp h with ⟨e, rfl, hx⟩ | ⟨a, met₁, met₂, es₁, es₂, rfl, rfl, hx, hf⟩
        · exact .inl ⟨e, rfl, value, rest, rfl, hx⟩
        · exact .inr ⟨a, .read key value :: met₁, met₂, es₁, es₂, rfl, rfl,
            ⟨value, met₁, rfl, hx⟩, hf⟩
      · rintro (⟨e, rfl, value, rest, rfl, hx⟩ |
          ⟨a, _, met₂, es₁, es₂, rfl, rfl, ⟨value, met₁, rfl, hx⟩, hf⟩)
        · exact ⟨value, rest, rfl, (ih value).mpr (.inl ⟨e, rfl, hx⟩)⟩
        · exact ⟨value, met₁ ++ met₂, rfl,
            (ih value).mpr (.inr ⟨a, met₁, met₂, es₁, es₂, rfl, rfl, hx, hf⟩)⟩
  | set key value next ih => exact ih
  | compareAndSet key old new next ih =>
      constructor
      · rintro ⟨swapped, rest, rfl, h⟩
        rcases (ih swapped).mp h with ⟨e, rfl, hx⟩ | ⟨a, met₁, met₂, es₁, es₂, rfl, rfl, hx, hf⟩
        · exact .inl ⟨e, rfl, swapped, rest, rfl, hx⟩
        · exact .inr ⟨a, _, met₂, es₁, es₂, (List.append_assoc ..).symm, rfl,
            ⟨swapped, met₁, rfl, hx⟩, hf⟩
      · rintro (⟨e, rfl, swapped, rest, rfl, hx⟩ |
          ⟨a, _, met₂, es₁, es₂, rfl, rfl, ⟨swapped, met₁, rfl, hx⟩, hf⟩)
        · exact ⟨swapped, rest, rfl, (ih swapped).mpr (.inl ⟨e, rfl, hx⟩)⟩
        · exact ⟨swapped, met₁ ++ met₂, List.append_assoc .., (ih swapped).mpr
            (.inr ⟨a, met₁, met₂, es₁, es₂, rfl, rfl, hx, hf⟩)⟩
  | ask q next ih =>
      constructor
      · rintro ⟨answer, rest, rfl, h⟩
        rcases (ih answer).mp h with ⟨e, rfl, hx⟩ | ⟨a, met₁, met₂, es₁, es₂, rfl, rfl, hx, hf⟩
        · exact .inl ⟨e, rfl, answer, rest, rfl, hx⟩
        · exact .inr ⟨a, met₁, met₂, ⟨op, q, answer⟩ :: es₁, es₂, rfl, rfl,
            ⟨answer, es₁, rfl, hx⟩, hf⟩
      · rintro (⟨e, rfl, answer, rest, rfl, hx⟩ |
          ⟨a, met₁, met₂, _, es₂, rfl, rfl, ⟨answer, es₁, rfl, hx⟩, hf⟩)
        · exact ⟨answer, rest, rfl, (ih answer).mpr (.inl ⟨e, rfl, hx⟩)⟩
        · exact ⟨answer, es₁ ++ es₂, rfl,
            (ih answer).mpr (.inr ⟨a, met₁, met₂, es₁, es₂, rfl, rfl, hx, hf⟩)⟩

/-- A program that always has a value leaves the rest to the second one. -/
theorem Plays.after {x : Program Q A ε α} {f : α → Program Q A ε β} {r : Except ε β}
    (total : ∀ e met es, ¬ x.Plays op met es (.error e)) (h : (x >>= f).Plays op met es r) :
    ∃ a met₁ met₂ es₁ es₂, met = met₁ ++ met₂ ∧ es = es₁ ++ es₂ ∧
      x.Plays op met₁ es₁ (.ok a) ∧ (f a).Plays op met₂ es₂ r := by
  rcases plays_bind.mp h with ⟨e, rfl, failed⟩ | rest
  · exact absurd failed (total e met es)
  · exact rest

/-- A program whose requests are answered inside says nothing. -/
theorem Plays.silent {f : ∀ q, A' q} {onError : ε' → ε} {x : Program Q' A' ε' α}
    {r : Except ε α}
    (h : (x.translate (fun q => (pure (f q) : Program Q A ε (A' q))) onError).Plays op met es r) :
    es = [] := by
  induction x generalizing met es with
  | done a => exact h.2.1
  | fail e => exact h.2.1
  | get key next ih =>
      obtain ⟨value, rest, _, h⟩ := h
      exact ih value h
  | set key value next ih => exact ih h
  | compareAndSet key old new next ih =>
      obtain ⟨swapped, rest, _, h⟩ := h
      exact ih swapped h
  | ask q next ih => exact ih (f q) h

/-- A loop speaks round after round, up to the first round that stops it. -/
theorem Plays.forM_until {p : α → Bool} {f : α → Program Q A ε Unit}
    (goes : ∀ a met es r, p a = true → (f a).Plays op met es r → r = .ok ())
    (stops : ∀ a met es r, p a = false → (f a).Plays op met es r →
      met = [] ∧ es = [] ∧ ∃ e, r = .error e)
    {xs : List α} {r : Except ε Unit} (h : (forM xs f).Plays op met es r) :
    ∃ parts : List (List Sight × List (Exchange Op Q A)),
      List.Forall₂ (fun a part => p a = true ∧ (f a).Plays op part.1 part.2 (.ok ()))
        (xs.takeWhile p) parts ∧
      met = (parts.map Prod.fst).flatten ∧ es = (parts.map Prod.snd).flatten ∧
      (r = .ok () ∨ ∃ a ∈ xs, p a = false) := by
  induction xs generalizing met es with
  | nil =>
      obtain ⟨rfl, rfl, rfl⟩ := h
      exact ⟨[], .nil, rfl, rfl, .inl rfl⟩
  | cons a xs ih =>
      rw [List.forM_cons] at h
      cases hp : p a with
      | false =>
          rw [List.takeWhile_cons, hp]
          rcases plays_bind.mp h with ⟨e, rfl, failed⟩ | ⟨_, _, _, _, _, rfl, rfl, first, rest⟩
          · obtain ⟨rfl, rfl, _⟩ := stops a _ _ _ hp failed
            exact ⟨[], .nil, rfl, rfl, .inr ⟨a, by simp, hp⟩⟩
          · obtain ⟨_, _, e, impossible⟩ := stops a _ _ _ hp first
            cases impossible
      | true =>
          rw [List.takeWhile_cons, hp]
          obtain ⟨_, met₁, _, es₁, _, rfl, rfl, first, rest⟩ := h.after fun e met es failed =>
            nomatch goes a met es _ hp failed
          obtain ⟨parts, played, rfl, rfl, ending⟩ := ih rest
          refine ⟨(met₁, es₁) :: parts, .cons ⟨hp, first⟩ played, rfl, rfl, ?_⟩
          rcases ending with ending | ⟨b, hb, stopped⟩
          · exact .inl ending
          · exact .inr ⟨b, by simp [hb], stopped⟩

/-- A loop that nothing stops speaks in every round. -/
theorem Plays.forM {f : α → Program Q A ε Unit} {xs : List α} {r : Except ε Unit}
    (goes : ∀ a met es r, (f a).Plays op met es r → r = .ok ())
    (h : (forM xs f).Plays op met es r) :
    ∃ parts : List (List Sight × List (Exchange Op Q A)),
      List.Forall₂ (fun a part => (f a).Plays op part.1 part.2 (.ok ())) xs parts ∧
      met = (parts.map Prod.fst).flatten ∧ es = (parts.map Prod.snd).flatten ∧ r = .ok () := by
  obtain ⟨parts, played, rfl, rfl, ending⟩ := Plays.forM_until (p := fun _ => true)
    (fun a met es r _ => goes a met es r) (fun _ _ _ _ never => nomatch never) h
  rw [List.takeWhile_eq_self_iff.mpr (by simp)] at played
  exact ⟨parts, played.imp fun _ _ round => round.2, rfl, rfl, by simpa using ending⟩

end Program

/-! ## What a worker has said -/

/-- What worker `w` asks and is answered in a turn. -/
def exchangeBy [DecidableEq W] (w : W) (n : Node W Op Q A ε) (t : Turn W Op Q A) :
    Option (Exchange Op Q A) :=
  match t with
  | .begin _ _ => none
  | .go w' _ => if w' = w then exchange n t else none

def Notice.sight {Op : Type} : Notice Op Q A → Option Sight
  | .answered _ => none
  | .saw _ sight => some sight

/-- What worker `w` meets in the storage in a turn. -/
def sightBy [DecidableEq W] (w : W) (n : Node W Op Q A ε) (t : Turn W Op Q A) : Option Sight :=
  match t with
  | .begin _ _ => none
  | .go w' _ => if w' = w then (notice n t).bind Notice.sight else none

section Turns

variable [DecidableEq W] (w : W)

abbrev NodeStep (W Op Q : Type) (A : Q → Type) (ε : Type) : Type :=
  Transition (Node W Op Q A ε) (Turn W Op Q A) (LogEntry W Op Q) Empty

/-- Worker `w` begins an operation. A busy one does not. -/
def begins (t : NodeStep W Op Q A ε) : Bool :=
  match t.input with
  | .begin w' _ => w' = w && t.before.idle w
  | .go _ _ => false

/-- The exchanges of worker `w` in the operation it began last. -/
def spoken (ts : List (NodeStep W Op Q A ε)) : List (Exchange Op Q A) :=
  (sinceLast (begins w) ts).filterMap fun t => exchangeBy w t.before t.input

/-- What worker `w` has met in the operation it began last. -/
def sights (ts : List (NodeStep W Op Q A ε)) : List Sight :=
  (sinceLast (begins w) ts).filterMap fun t => sightBy w t.before t.input

variable {w} {program : Op → Program Q A ε Unit} {n : Node W Op Q A ε}
  {ts : List (NodeStep W Op Q A ε)} {met : List Sight}

theorem spoken_concat (t : NodeStep W Op Q A ε) :
    spoken w (ts ++ [t]) =
      if begins w t then [] else spoken w ts ++ (exchangeBy w t.before t.input).toList := by
  unfold spoken
  rw [sinceLast_concat]
  split
  · rfl
  · cases h : exchangeBy w t.before t.input <;> simp [h]

theorem sights_concat (t : NodeStep W Op Q A ε) :
    sights w (ts ++ [t]) =
      if begins w t then [] else sights w ts ++ (sightBy w t.before t.input).toList := by
  unfold sights
  rw [sinceLast_concat]
  split
  · rfl
  · cases h : sightBy w t.before t.input <;> simp [h]

/-- What was to be said before an access is what it says and what is left to say. -/
theorem Program.Plays.before_advance {op : Op} {p : Program Q A ε Unit} {world : ∀ q, A q}
    {rest : List (Exchange Op Q A)} {r : Except ε Unit} (busy : n.running w = some (op, p))
    (h : (p.advance world n.store).1.Plays op met rest r) :
    p.Plays op ((sightBy w n (.go w world)).toList ++ met)
      ((exchangeBy w n (.go w world)).toList ++ rest) r := by
  simp only [sightBy, notice_go busy, exchangeBy, exchange, busy, ↓reduceIte]
  cases p with
  | done a => exact h
  | fail e => exact h
  | get key next => exact ⟨n.store.find key, met, rfl, h⟩
  | set key value next => exact h
  | compareAndSet key old new next =>
      by_cases same : n.store.find key = old
      · rw [Program.advance, if_pos same] at h
        exact ⟨true, met, by simp [Program.learns, same], h⟩
      · rw [Program.advance, if_neg same] at h
        exact ⟨false, met, by simp [Program.learns, same, Notice.sight], h⟩
  | ask q next => exact ⟨world q, rest, rfl, h⟩

/-- What every worker has said, with what it may still say, is a dialogue of its program. -/
def Conversing (program : Op → Program Q A ε Unit) (ts : List (NodeStep W Op Q A ε))
    (n : Node W Op Q A ε) : Prop :=
  ∀ w op p, n.running w = some (op, p) → ∀ met rest r, p.Plays op met rest r →
    (program op).Plays op (sights w ts ++ met) (spoken w ts ++ rest) r

theorem Conversing.begin (h : Conversing program ts n) (w : W) (op : Op) :
    Conversing program (ts ++ [fire (turn program) n (.begin w op)])
      (fire (turn program) n (.begin w op)).after := by
  intro w' op' p busy met rest r plays
  rw [spoken_concat, sights_concat]
  by_cases idle : n.idle w = true
  · simp only [fire, Transition.after, run_turn_begin, idle, ↓reduceIte] at busy
    rcases Node.running_resume busy with ⟨rfl, rfl, rfl⟩ | ⟨other, before⟩
    · simpa [begins, fire, idle] using plays
    · have said := h w' op' p before met rest r plays
      simpa [begins, fire, other.symm, exchangeBy, sightBy] using said
  · simp only [fire, Transition.after, run_turn_begin, idle] at busy
    have unbegun : begins w' (fire (turn program) n (.begin w op)) = false := by
      by_cases same : w = w'
      · subst same
        simpa [begins, fire] using idle
      · simp [begins, fire, same]
    rw [unbegun]
    simpa [fire, exchangeBy, sightBy] using h w' op' p busy met rest r plays

theorem Conversing.go (h : Conversing program ts n) (w : W) (world : ∀ q, A q) :
    Conversing program (ts ++ [fire (turn program) n (.go w world)])
      (fire (turn program) n (.go w world)).after := by
  intro w' op' p busy met rest r plays
  rw [spoken_concat, sights_concat]
  have unbegun : begins w' (fire (turn program) n (.go w world)) = false := rfl
  rw [unbegun, fire_before, fire_input]
  cases before : n.running w with
  | none =>
      have nothing : exchangeBy w' n (.go w world) = none := by
        simp [exchangeBy, exchange, before]
      have unseen : sightBy w' n (.go w world) = none := by
        simp [sightBy, notice, before]
      simp only [fire, Transition.after, run_turn_go_idle program before world] at busy
      simpa [nothing, unseen] using h w' op' p busy met rest r plays
  | some slot =>
      obtain ⟨op, p₀⟩ := slot
      simp only [fire, Transition.after, run_turn_go program before world, Node.advance] at busy
      rcases Node.running_resume busy with ⟨rfl, rfl, rfl⟩ | ⟨other, unchanged⟩
      · have said := h w' op' p₀ before _ _ r (plays.before_advance before)
        simpa using said
      · have nothing : exchangeBy w' n (.go w world) = none := by
          simp [exchangeBy, other.symm]
        have unseen : sightBy w' n (.go w world) = none := by
          simp [sightBy, other.symm]
        simpa [nothing, unseen] using h w' op' p unchanged met rest r plays

end Turns

/-! ## Logs acted out -/

section Enactments

variable {γ δ σ O : Type}

/-- Entry after entry of the log becomes the piece that `R` allows. -/
def Enacts (R : γ → List δ → Prop) : List γ → List δ → Prop
  | [], es => es = []
  | entry :: log, es => ∃ part rest, es = part ++ rest ∧ R entry part ∧ Enacts R log rest

variable {R : γ → List δ → Prop}

theorem Enacts.append {log log' : List γ} {es es' : List δ} (h : Enacts R log es)
    (h' : Enacts R log' es') : Enacts R (log ++ log') (es ++ es') := by
  induction log generalizing es with
  | nil =>
      obtain rfl : es = [] := h
      exact h'
  | cons entry log ih =>
      obtain ⟨part, rest, rfl, first, later⟩ := h
      exact ⟨part, rest ++ es', by simp, first, ih later⟩

/-- What is seen of each entry is seen of the whole log. -/
theorem Enacts.filterMap {see : δ → Option β} {report : γ → List β} {log : List γ} {es : List δ}
    (h : Enacts R log es) (seen : ∀ entry part, R entry part → part.filterMap see = report entry) :
    es.filterMap see = log.flatMap report := by
  induction log generalizing es with
  | nil =>
      obtain rfl : es = [] := h
      rfl
  | cons entry log ih =>
      obtain ⟨part, rest, rfl, first, later⟩ := h
      rw [List.filterMap_append, seen entry part first, ih later, List.flatMap_cons]

/-- The log of a loop, acted out round by round, the round of each member on the terms for its
position and on what was met there. -/
def EnactsRounds (R : List σ → O → List γ → List δ → Prop) (entries : α → O → List γ)
    (terms : Nat → O) (xs : List α) (log : List γ) (met : List σ) (es : List δ) : Prop :=
  (log = xs.zipIdx.flatMap fun a => entries a.1 (terms a.2)) ∧
    ∃ parts : List (List σ × List δ), met = (parts.map Prod.fst).flatten ∧
      es = (parts.map Prod.snd).flatten ∧ List.Forall₂
        (fun a part => R part.1 (terms a.2) (entries a.1 (terms a.2)) part.2) xs.zipIdx parts

variable {R : List σ → O → List γ → List δ → Prop} {entries : α → O → List γ} {xs : List α}

theorem EnactsRounds.filterMap {terms : Nat → O} {log : List γ} {met : List σ} {es : List δ}
    {see : δ → Option β} {report : γ → List β} (h : EnactsRounds R entries terms xs log met es)
    (seen : ∀ met o round part, R met o round part → part.filterMap see = round.flatMap report) :
    es.filterMap see = log.flatMap report := by
  obtain ⟨rfl, parts, rfl, rfl, enacted⟩ := h
  generalize xs.zipIdx = ys at enacted
  induction enacted with
  | nil => rfl
  | cons first _ ih =>
      rw [List.map_cons, List.flatten_cons, List.filterMap_append, seen _ _ _ _ first, ih,
        List.flatMap_cons, List.flatMap_append]

end Enactments

end AbcDemo.Foundation
