import Mathlib.Algebra.BigOperators.Finprod
import Mathlib.Tactic.Common

/-! # Reservable currencies

A currency keeps a free and a reserved balance per account. The interface is
the one a service is written against; its laws are stated as exact movements
between balances, so that everything else is a frame condition. The reference
ledger at the end satisfies them.
-/

namespace AbcDemo.Foundation

inductive BalanceStatus where
  | free
  | reserved
  deriving DecidableEq

/-- `repatriateReserved` and `unreserve` return the part of the amount that was
not there to be moved. -/
structure ReservableCurrency (Account Ledger ε : Type) where
  freeBalance : Ledger → Account → Nat
  reservedBalance : Ledger → Account → Nat
  accountExists : Ledger → Account → Bool
  reserve : Account → Nat → Ledger → Except ε Ledger
  unreserve : Account → Nat → Ledger → Nat × Ledger
  repatriateReserved : Account → Account → Nat → BalanceStatus → Ledger → Except ε (Nat × Ledger)

namespace ReservableCurrency

variable {Account Ledger ε : Type} (C : ReservableCurrency Account Ledger ε)

/-! ## Exact movements -/

/-- Exactly `v` went from the free to the reserved balance of `c`. -/
structure Reserves (c : Account) (v : Nat) (L L' : Ledger) : Prop where
  free_eq : C.freeBalance L' c + v = C.freeBalance L c
  reserved_eq : C.reservedBalance L' c = C.reservedBalance L c + v
  free_frame : ∀ a, a ≠ c → C.freeBalance L' a = C.freeBalance L a
  reserved_frame : ∀ a, a ≠ c → C.reservedBalance L' a = C.reservedBalance L a

/-- Exactly `v` went from the reserved balance of `c` to the free balance of `d`. -/
structure Releases (c d : Account) (v : Nat) (L L' : Ledger) : Prop where
  reserved_eq : C.reservedBalance L' c + v = C.reservedBalance L c
  free_eq : C.freeBalance L' d = C.freeBalance L d + v
  reserved_frame : ∀ a, a ≠ c → C.reservedBalance L' a = C.reservedBalance L a
  free_frame : ∀ a, a ≠ d → C.freeBalance L' a = C.freeBalance L a

/-- The movements of a balances ledger without dusting. -/
structure MovesExactly : Prop where
  reserve_ok : ∀ {c v L L'}, C.reserve c v L = .ok L' → C.Reserves c v L L'
  repatriate_ok : ∀ {c d v L rest L'},
    C.repatriateReserved c d v .free L = .ok (rest, L') →
      rest = v - min v (C.reservedBalance L c) ∧
        C.Releases c d (min v (C.reservedBalance L c)) L L'

/-- Besides, a repatriation to a free balance fails only where it has something
to do and the beneficiary, another account, does not exist. -/
structure Lawful : Prop extends C.MovesExactly where
  repatriate_succeeds_iff : ∀ {c d v L},
    (∃ out, C.repatriateReserved c d v .free L = .ok out) ↔
      v = 0 ∨ c = d ∨ C.accountExists L d

theorem Releases.zero (c d : Account) (L : Ledger) : C.Releases c d 0 L L :=
  ⟨rfl, rfl, fun _ _ => rfl, fun _ _ => rfl⟩

/-! ## Conservation of the total -/

noncomputable def total (L : Ledger) : Nat :=
  ∑ᶠ a, (C.freeBalance L a + C.reservedBalance L a)

/-- Two finite-support sums agree when the summands agree outside a finite set
and have the same sum on it. -/
theorem finsum_eq_of_agree_off {α : Type} {f g : α → Nat} (s : Finset α)
    (off : ∀ a, a ∉ s → f a = g a) (sum : ∑ a ∈ s, f a = ∑ a ∈ s, g a) :
    ∑ᶠ a, f a = ∑ᶠ a, g a := by
  classical
  have support_subset : ∀ {f g : α → Nat}, (∀ a, a ∉ s → f a = g a) →
      Function.support f ⊆ Function.support g ∪ ↑s := by
    intro f g off a ha
    by_cases has : a ∈ s
    · exact .inr has
    · exact .inl (by simpa [off a has] using ha)
  by_cases hf : (Function.support f).Finite
  · have hF : Function.support f ⊆ ↑(hf.toFinset ∪ s) := by simp
    have hG : Function.support g ⊆ ↑(hf.toFinset ∪ s) := by
      simpa using support_subset (fun a ha => (off a ha).symm)
    have hs : s ⊆ hf.toFinset ∪ s := Finset.subset_union_right
    rw [finsum_eq_sum_of_support_subset f hF, finsum_eq_sum_of_support_subset g hG,
      ← Finset.sum_sdiff hs, ← Finset.sum_sdiff hs, sum]
    congr 1
    apply Finset.sum_congr rfl
    intro a ha
    exact off a (Finset.mem_sdiff.mp ha).2
  · have hg : ¬ (Function.support g).Finite := by
      intro hg
      exact hf ((hg.union s.finite_toSet).subset (support_subset off))
    rw [finsum_of_infinite_support hf, finsum_of_infinite_support hg]

variable {C}

theorem Reserves.total_eq {c : Account} {v : Nat} {L L' : Ledger}
    (h : C.Reserves c v L L') : C.total L' = C.total L := by
  apply finsum_eq_of_agree_off {c}
  · intro a ha
    have hac : a ≠ c := by simpa using ha
    rw [h.free_frame a hac, h.reserved_frame a hac]
  · have hfree := h.free_eq
    have hres := h.reserved_eq
    simp only [Finset.sum_singleton]
    omega

theorem Releases.total_eq {c d : Account} {v : Nat} {L L' : Ledger}
    (h : C.Releases c d v L L') : C.total L' = C.total L := by
  classical
  have hfree := h.free_eq
  have hres := h.reserved_eq
  apply finsum_eq_of_agree_off {c, d}
  · intro a ha
    obtain ⟨hac, had⟩ : a ≠ c ∧ a ≠ d := by simpa using ha
    rw [h.free_frame a had, h.reserved_frame a hac]
  · by_cases hcd : c = d
    · subst hcd
      simp only [Finset.pair_eq_singleton, Finset.sum_singleton]
      omega
    · rw [Finset.sum_pair hcd, Finset.sum_pair hcd, h.free_frame c hcd,
        h.reserved_frame d (Ne.symm hcd)]
      omega

/-- A movement determines its amount and, unless it is empty, its beneficiary. -/
theorem Releases.unique {c d d' : Account} {v v' : Nat} {L L' : Ledger}
    (h : C.Releases c d v L L') (h' : C.Releases c d' v' L L') :
    v = v' ∧ (0 < v → d = d') := by
  have hv : v = v' := by
    have hr := h.reserved_eq
    have hr' := h'.reserved_eq
    omega
  refine ⟨hv, fun hpos => ?_⟩
  by_contra hne
  have hfree := h.free_eq
  rw [h'.free_frame d hne] at hfree
  omega

/-! ## Repatriations whose failure is ignored -/

variable (C) in
/-- The ledger after an attempt to repatriate. -/
def afterRepatriate (c d : Account) (v : Nat) (L : Ledger) : Ledger :=
  match C.repatriateReserved c d v .free L with
  | .ok (_, L') => L'
  | .error _ => L

theorem afterRepatriate_ok {c d : Account} {v rest : Nat} {L L' : Ledger}
    (h : C.repatriateReserved c d v .free L = .ok (rest, L')) :
    C.afterRepatriate c d v L = L' := by
  rw [afterRepatriate, h]

theorem afterRepatriate_error {c d : Account} {v : Nat} {L : Ledger} {e : ε}
    (h : C.repatriateReserved c d v .free L = .error e) : C.afterRepatriate c d v L = L := by
  rw [afterRepatriate, h]

/-- An attempt moves exactly `f` to `d` when it is made for `d`, the amount and
the reserve leave `f` to be moved, and the beneficiary can receive it. -/
theorem Lawful.releases_afterRepatriate_iff (lawful : C.Lawful) {c d d' : Account} {f v : Nat}
    {L : Ledger} (hf : 0 < f) :
    C.Releases c d f L (C.afterRepatriate c d' v L) ↔
      d' = d ∧ min v (C.reservedBalance L c) = f ∧ (c = d ∨ C.accountExists L d) := by
  cases h : C.repatriateReserved c d' v .free L with
  | error e =>
      rw [afterRepatriate_error h]
      constructor
      · intro moved
        have hres := moved.reserved_eq
        omega
      · intro h
        rcases h with ⟨rfl, _, receives⟩
        obtain ⟨out, hok⟩ := lawful.repatriate_succeeds_iff.mpr (.inr receives : v = 0 ∨ _)
        cases h.symm.trans hok
  | ok out =>
      rcases out with ⟨rest, L'⟩
      rw [afterRepatriate_ok h]
      have moved := (lawful.repatriate_ok h).2
      constructor
      · intro released
        obtain ⟨amount, beneficiary⟩ := moved.unique released
        obtain rfl : d' = d := beneficiary (by omega)
        refine ⟨rfl, amount, ?_⟩
        exact (lawful.repatriate_succeeds_iff.mp ⟨_, h⟩).resolve_left (by omega)
      · intro h
        rcases h with ⟨rfl, rfl, _⟩
        exact moved

/-! ## Releases to the account itself -/

variable (C) in
/-- `unreserve` gives back what is asked for, as far as it is there. -/
def UnreservesExactly : Prop :=
  ∀ c v L, C.Releases c c (min v (C.reservedBalance L c)) L (C.unreserve c v L).2

/-- Nothing is moved between any accounts when nothing is moved. -/
theorem Releases.of_zero {a b : Account} {L L' : Ledger} (h : C.Releases a b 0 L L')
    (c d : Account) : C.Releases c d 0 L L' := by
  have reserved : ∀ x, C.reservedBalance L' x = C.reservedBalance L x := by
    intro x
    by_cases hx : x = a
    · rw [hx]
      exact h.reserved_eq
    · exact h.reserved_frame x hx
  have free : ∀ x, C.freeBalance L' x = C.freeBalance L x := by
    intro x
    by_cases hx : x = b
    · rw [hx]
      exact h.free_eq
    · exact h.free_frame x hx
  exact ⟨reserved c, free d, fun x _ => reserved x, fun x _ => free x⟩

/-- Releasing for `a` gives `c` exactly `f` when `a` is `c`, or nothing is due, and
the amount and the reserve leave `f` to be released. -/
theorem UnreservesExactly.releases_iff (unreserves : C.UnreservesExactly) {a c : Account}
    {f v : Nat} {L : Ledger} :
    C.Releases c c f L (C.unreserve a v L).2 ↔
      (a = c ∨ f = 0) ∧ min v (C.reservedBalance L a) = f := by
  have moved := unreserves a v L
  constructor
  · intro released
    by_cases hac : a = c
    · subst hac
      exact ⟨.inl rfl, (moved.unique released).1⟩
    · have due := released.reserved_eq
      rw [moved.reserved_frame c (Ne.symm hac)] at due
      have given := moved.reserved_eq
      rw [released.reserved_frame a hac] at given
      exact ⟨.inr (by omega), by omega⟩
  · intro h
    obtain ⟨own | nothing, amount⟩ := h
    · subst own
      rwa [amount] at moved
    · rw [amount, nothing] at moved
      rw [nothing]
      exact moved.of_zero c c

/-! ## Ledgers that read the same -/

variable (C) in
/-- Every balance reads the same, and the same accounts exist. -/
structure Agrees (L L' : Ledger) : Prop where
  free : ∀ a, C.freeBalance L' a = C.freeBalance L a
  reserved : ∀ a, C.reservedBalance L' a = C.reservedBalance L a
  accounts : ∀ a, C.accountExists L' a = C.accountExists L a

theorem Agrees.refl (L : Ledger) : C.Agrees L L := ⟨fun _ => rfl, fun _ => rfl, fun _ => rfl⟩

theorem Agrees.trans {L L' L'' : Ledger} (h : C.Agrees L L') (h' : C.Agrees L' L'') :
    C.Agrees L L'' where
  free a := (h'.free a).trans (h.free a)
  reserved a := (h'.reserved a).trans (h.reserved a)
  accounts a := (h'.accounts a).trans (h.accounts a)

variable (C) in
/-- Besides the laws, a repatriation neither creates nor removes accounts. -/
structure KeepsAccounts : Prop extends C.Lawful where
  repatriate_accounts : ∀ {c d v L rest L'},
    C.repatriateReserved c d v .free L = .ok (rest, L') →
      ∀ a, C.accountExists L' a = C.accountExists L a

variable (C) in
/-- What an attempt to repatriate moves. -/
def movable [DecidableEq Account] (c d : Account) (v : Nat) (L : Ledger) : Nat :=
  if v = 0 ∨ c = d ∨ C.accountExists L d then min v (C.reservedBalance L c) else 0

section Attempts

variable [DecidableEq Account] (keeps : C.KeepsAccounts)

include keeps

theorem KeepsAccounts.releases_afterRepatriate (c d : Account) (v : Nat) (L : Ledger) :
    C.Releases c d (C.movable c d v L) L (C.afterRepatriate c d v L) := by
  cases h : C.repatriateReserved c d v .free L with
  | error e =>
      have fails : ¬ (v = 0 ∨ c = d ∨ C.accountExists L d) := by
        rw [← keeps.repatriate_succeeds_iff]
        simp [h]
      rw [afterRepatriate_error h, movable, if_neg fails]
      exact .zero C c d L
  | ok out =>
      rcases out with ⟨rest, L'⟩
      rw [afterRepatriate_ok h, movable, if_pos (keeps.repatriate_succeeds_iff.mp ⟨_, h⟩)]
      exact (keeps.repatriate_ok h).2

omit [DecidableEq Account] in
theorem KeepsAccounts.accounts_afterRepatriate (c d : Account) (v : Nat) (L : Ledger)
    (a : Account) : C.accountExists (C.afterRepatriate c d v L) a = C.accountExists L a := by
  cases h : C.repatriateReserved c d v .free L with
  | error e => rw [afterRepatriate_error h]
  | ok out => rw [afterRepatriate_ok h, keeps.repatriate_accounts h]

theorem KeepsAccounts.reserved_afterRepatriate (c d : Account) (v : Nat) (L : Ledger)
    (a : Account) :
    C.reservedBalance (C.afterRepatriate c d v L) a =
      C.reservedBalance L a - if a = c then C.movable c d v L else 0 := by
  have moved := keeps.releases_afterRepatriate c d v L
  by_cases ha : a = c
  · have hres := moved.reserved_eq
    rw [if_pos ha, ha]
    omega
  · rw [if_neg ha, moved.reserved_frame a ha, Nat.sub_zero]

theorem KeepsAccounts.free_afterRepatriate (c d : Account) (v : Nat) (L : Ledger) (a : Account) :
    C.freeBalance (C.afterRepatriate c d v L) a =
      C.freeBalance L a + if a = d then C.movable c d v L else 0 := by
  have moved := keeps.releases_afterRepatriate c d v L
  by_cases ha : a = d
  · rw [if_pos ha, ha, moved.free_eq]
  · rw [if_neg ha, moved.free_frame a ha, Nat.add_zero]

/-- An attempt does the same on ledgers that read the same. -/
theorem KeepsAccounts.agrees_afterRepatriate {L L' : Ledger} (h : C.Agrees L L')
    (c d : Account) (v : Nat) :
    C.Agrees (C.afterRepatriate c d v L) (C.afterRepatriate c d v L') := by
  have same : C.movable c d v L' = C.movable c d v L := by
    rw [movable, movable, h.accounts, h.reserved]
  constructor
  · intro a
    rw [keeps.free_afterRepatriate, keeps.free_afterRepatriate, h.free, same]
  · intro a
    rw [keeps.reserved_afterRepatriate, keeps.reserved_afterRepatriate, h.reserved, same]
  · intro a
    rw [keeps.accounts_afterRepatriate, keeps.accounts_afterRepatriate, h.accounts]

/-- A payment out of another reserve changes nothing that an attempt looks at. -/
theorem KeepsAccounts.movable_afterRepatriate {c c' : Account} (hne : c ≠ c') (d d' : Account)
    (v v' : Nat) (L : Ledger) :
    C.movable c d v (C.afterRepatriate c' d' v' L) = C.movable c d v L := by
  rw [movable, movable, keeps.accounts_afterRepatriate, keeps.reserved_afterRepatriate,
    if_neg hne, Nat.sub_zero]

/-- Payments out of different reserves can be exchanged, whoever receives them. -/
theorem KeepsAccounts.afterRepatriate_comm {c c' : Account} (hne : c ≠ c') (d d' : Account)
    (v v' : Nat) (L : Ledger) :
    C.Agrees (C.afterRepatriate c' d' v' (C.afterRepatriate c d v L))
      (C.afterRepatriate c d v (C.afterRepatriate c' d' v' L)) := by
  have amount := keeps.movable_afterRepatriate hne d d' v v' L
  have amount' := keeps.movable_afterRepatriate hne.symm d' d v' v L
  constructor
  · intro a
    simp only [keeps.free_afterRepatriate, amount, amount']
    omega
  · intro a
    simp only [keeps.reserved_afterRepatriate, amount, amount']
    omega
  · intro a
    simp only [keeps.accounts_afterRepatriate]

end Attempts

end ReservableCurrency

/-! ## A reference ledger -/

structure AccountData where
  free : Nat
  reserved : Nat
  deriving DecidableEq

/-- Errors of the reference ledger. -/
inductive LedgerError where
  | insufficientBalance
  | deadAccount
  deriving DecidableEq

namespace AccountLedger

variable {Account : Type} [DecidableEq Account]

def set (L : Account → AccountData) (a : Account) (data : AccountData) : Account → AccountData :=
  fun b => if b = a then data else L b

def unreserve (c : Account) (v : Nat) (L : Account → AccountData) :
    Nat × (Account → AccountData) :=
  let actual := min v (L c).reserved
  (v - actual, set L c ⟨(L c).free + actual, (L c).reserved - actual⟩)

def reserve (c : Account) (v : Nat) (L : Account → AccountData) :
    Except LedgerError (Account → AccountData) :=
  if v ≤ (L c).free then .ok (set L c ⟨(L c).free - v, (L c).reserved + v⟩)
  else .error .insufficientBalance

def repatriateReserved (c d : Account) (v : Nat) (status : BalanceStatus)
    (L : Account → AccountData) : Except LedgerError (Nat × (Account → AccountData)) :=
  if v = 0 then .ok (0, L)
  else if c = d then
    match status with
    | .free => .ok (unreserve c v L)
    | .reserved => .ok (v - (L c).reserved, L)
  else if L d = ⟨0, 0⟩ then .error .deadAccount
  else
    let actual := min v (L c).reserved
    let paid := set L c ⟨(L c).free, (L c).reserved - actual⟩
    match status with
    | .free => .ok (v - actual, set paid d ⟨(L d).free + actual, (L d).reserved⟩)
    | .reserved => .ok (v - actual, set paid d ⟨(L d).free, (L d).reserved + actual⟩)

/-- Accounts with nothing on them do not exist. -/
def currency {ε : Type} (raise : LedgerError → ε) :
    ReservableCurrency Account (Account → AccountData) ε where
  freeBalance L a := (L a).free
  reservedBalance L a := (L a).reserved
  accountExists L a := L a ≠ ⟨0, 0⟩
  reserve c v L := (reserve c v L).mapError raise
  unreserve := unreserve
  repatriateReserved c d v status L := (repatriateReserved c d v status L).mapError raise

variable {ε : Type} (raise : LedgerError → ε)

theorem currency_unreservesExactly :
    (currency raise : ReservableCurrency Account (Account → AccountData) ε).UnreservesExactly := by
  intro c v L
  constructor <;> simp +contextual [currency, unreserve, set]

/-- What is taken off the reserve of `c` is free for another account. -/
theorem releases_transfer {c d : Account} (hcd : c ≠ d) (v : Nat) (L : Account → AccountData) :
    (currency raise : ReservableCurrency Account (Account → AccountData) ε).Releases c d
      (min v (L c).reserved) L
      (set (set L c ⟨(L c).free, (L c).reserved - min v (L c).reserved⟩) d
        ⟨(L d).free + min v (L c).reserved, (L d).reserved⟩) where
  reserved_eq := by simp [currency, set, hcd]
  free_eq := by simp [currency, set]
  reserved_frame a ha := by
    by_cases had : a = d <;> simp [currency, set, ha, had]
  free_frame a ha := by
    by_cases hac : a = c <;> simp [currency, set, ha, hac, hcd]

theorem currency_lawful :
    (currency raise : ReservableCurrency Account (Account → AccountData) ε).Lawful where
  reserve_ok := by
    intro c v L L' h
    by_cases hv : v ≤ (L c).free
    · simp only [currency, reserve, hv, ↓reduceIte, Except.mapError, Except.ok.injEq] at h
      subst h
      constructor <;> simp +contextual [currency, set, hv]
    · simp [currency, reserve, hv, Except.mapError] at h
  repatriate_ok := by
    intro c d v L rest L' h
    by_cases hv : v = 0
    · simp only [currency, repatriateReserved, hv, ↓reduceIte, Except.mapError, Except.ok.injEq,
        Prod.mk.injEq] at h
      rcases h with ⟨rfl, rfl⟩
      subst hv
      exact ⟨by simp, by simpa using ReservableCurrency.Releases.zero _ c d L⟩
    by_cases hcd : c = d
    · subst hcd
      simp only [currency, repatriateReserved, hv, ↓reduceIte, Except.mapError, Except.ok.injEq,
        unreserve, Prod.mk.injEq] at h
      rcases h with ⟨rfl, rfl⟩
      exact ⟨rfl, currency_unreservesExactly raise c v L⟩
    by_cases hd : L d = ⟨0, 0⟩
    · simp [currency, repatriateReserved, hv, hcd, hd, Except.mapError] at h
    · simp only [currency, repatriateReserved, hv, hcd, hd, ↓reduceIte, Except.mapError,
        Except.ok.injEq, Prod.mk.injEq] at h
      rcases h with ⟨rfl, rfl⟩
      exact ⟨rfl, releases_transfer raise hcd v L⟩
  repatriate_succeeds_iff := by
    intro c d v L
    by_cases hv : v = 0
    · simp [currency, repatriateReserved, hv, Except.mapError]
    by_cases hcd : c = d
    · simp [currency, repatriateReserved, hv, hcd, Except.mapError]
    by_cases hd : L d = ⟨0, 0⟩ <;>
      simp [currency, repatriateReserved, hv, hcd, hd, Except.mapError]

/-! ### Over a fixed set of accounts -/

def repatriateAmong (accounts : Account → Bool) (c d : Account) (v : Nat) (status : BalanceStatus)
    (L : Account → AccountData) : Except LedgerError (Nat × (Account → AccountData)) :=
  if v = 0 ∨ c = d then repatriateReserved c d v status L
  else if accounts d then
    let actual := min v (L c).reserved
    let paid := set L c ⟨(L c).free, (L c).reserved - actual⟩
    match status with
    | .free => .ok (v - actual, set paid d ⟨(L d).free + actual, (L d).reserved⟩)
    | .reserved => .ok (v - actual, set paid d ⟨(L d).free, (L d).reserved + actual⟩)
  else .error .deadAccount

/-- The accounts that exist are given once and for all. -/
def currencyAmong (accounts : Account → Bool) :
    ReservableCurrency Account (Account → AccountData) ε :=
  { currency raise with
    accountExists := fun _ a => accounts a
    repatriateReserved := fun c d v status L =>
      (repatriateAmong accounts c d v status L).mapError raise }

theorem currencyAmong_keepsAccounts (accounts : Account → Bool) :
    (currencyAmong raise accounts :
      ReservableCurrency Account (Account → AccountData) ε).KeepsAccounts where
  reserve_ok h :=
    have moved := (currency_lawful raise).reserve_ok h
    ⟨moved.free_eq, moved.reserved_eq, moved.free_frame, moved.reserved_frame⟩
  repatriate_ok := by
    intro c d v L rest L' h
    by_cases hv : v = 0 ∨ c = d
    · have h : (currency raise).repatriateReserved c d v .free L = .ok (rest, L') := by
        simpa [currencyAmong, repatriateAmong, hv, currency] using h
      obtain ⟨hrest, moved⟩ := (currency_lawful raise).repatriate_ok h
      exact ⟨hrest, moved.reserved_eq, moved.free_eq, moved.reserved_frame, moved.free_frame⟩
    have hcd : c ≠ d := fun hcd => hv (.inr hcd)
    by_cases hd : accounts d
    · simp only [currencyAmong, repatriateAmong, hv, hd, ↓reduceIte, Except.mapError,
        Except.ok.injEq, Prod.mk.injEq] at h
      rcases h with ⟨rfl, rfl⟩
      have moved := releases_transfer raise hcd v L
      exact ⟨rfl, moved.reserved_eq, moved.free_eq, moved.reserved_frame, moved.free_frame⟩
    · simp [currencyAmong, repatriateAmong, hv, hd, Except.mapError] at h
  repatriate_succeeds_iff := by
    intro c d v L
    by_cases hv : v = 0
    · simp [currencyAmong, repatriateAmong, repatriateReserved, hv, Except.mapError]
    by_cases hcd : c = d
    · simp [currencyAmong, repatriateAmong, repatriateReserved, hcd, hv, Except.mapError]
    by_cases hd : accounts d <;>
      simp [currencyAmong, repatriateAmong, hv, hcd, hd, Except.mapError]
  repatriate_accounts _ _ := rfl

end AccountLedger

end AbcDemo.Foundation
