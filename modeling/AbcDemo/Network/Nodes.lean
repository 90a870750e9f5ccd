import AbcDemo.Network.Causes
import AbcDemo.Worker.Refinement

/-! # A node within the network

What the network gives a node is a schedule of its workers, so what holds of the
workers of one node, however they interleave, holds of every node of every run.
In particular a round that is over has submitted what its block called for.
-/

namespace AbcDemo.Network

open Foundation Pallet Offchain Worker

variable {N W AccountId Ledger Public : Type}

/-! ## The schedule of a node -/

abbrev SystemStep (N W AccountId Ledger Public : Type) : Type :=
  Transition (System N W AccountId Ledger Public) (Move N W AccountId Public)
    (Happening N AccountId Ledger Public) Empty

section Schedules

variable [DecidableEq N] (n : N) {ts : List (SystemStep N W AccountId Ledger Public)}

/-- The turn that a step gives to node `n`, if any. -/
def turnOf (t : SystemStep N W AccountId Ledger Public) :
    Option (Turn W (Round AccountId Ledger) (Request AccountId Public) Reply) :=
  match t.input with
  | .extend _ => none
  | .start n' w blockNumber =>
      if n' = n then some (.begin w ⟨blockNumber, t.before.state⟩) else none
  | .go n' w world => if n' = n then some (.go w world) else none

omit [DecidableEq N] in
theorem happened_concat (t : SystemStep N W AccountId Ledger Public) :
    happened (ts ++ [t]) = happened ts ++ t.outcome.log := by
  rw [happened, List.flatMap_append, List.flatMap_singleton, happened]

/-- The exchange of node `n`. -/
def exchangeOf : Happening N AccountId Ledger Public → Option (HostExchange AccountId Ledger Public)
  | .noticed n' (.answered e) => if n' = n then some e else none
  | _ => none

/-- What a turn leaves behind of the node's own exchanges. -/
theorem exchangeOf_noticed (node : HostNode W AccountId Ledger Public)
    (own : Turn W (Round AccountId Ledger) (Request AccountId Public) Reply) :
    ((notice node own).toList.map (.noticed n)).filterMap (exchangeOf n) =
      (exchange node own).toList := by
  cases hexchange : exchange node own with
  | some e => simp [notice_eq_answered.mpr hexchange, exchangeOf]
  | none =>
      cases hnotice : notice node own with
      | none => rfl
      | some what =>
          cases what with
          | answered e =>
              rw [notice_eq_answered.mp hnotice] at hexchange
              cases hexchange
          | saw op sight => rfl

variable [DecidableEq W] [DecidableEq AccountId] [Inhabited AccountId] [Codec AccountId]
  [Codec (List ResultEntry)] [Codec DelegateInfo] (S : Setup N AccountId Ledger Public)

abbrev HostStep (W AccountId Ledger Public : Type) : Type :=
  NodeStep W (Round AccountId Ledger) (Request AccountId Public) Reply Empty

/-- The step that node `n` takes in a step of the network, if any. -/
def stepOf (t : SystemStep N W AccountId Ledger Public) :
    Option (HostStep W AccountId Ledger Public) :=
  (turnOf n t).map (fire (turn (worker S n)) (t.before.nodes n))

/-- The steps of node `n`, each from the node as the network had it. -/
def nodeSteps (ts : List (SystemStep N W AccountId Ledger Public)) :
    List (HostStep W AccountId Ledger Public) :=
  ts.filterMap (stepOf n S)

/-- A node has run its schedule, and its exchanges are those of its steps. -/
structure RanAlone (stores : N → LocalStorage) (ts : List (SystemStep N W AccountId Ledger Public))
    (sys : System N W AccountId Ledger Public) : Prop where
  node : sys.nodes n =
    (exec (turn (worker S n)) (Node.start (stores n)) (ts.filterMap (turnOf n))).final
  steps : nodeSteps n S ts =
    (exec (turn (worker S n)) (Node.start (stores n)) (ts.filterMap (turnOf n))).transitions
  exchanges : (happened ts).filterMap (exchangeOf n) =
    (nodeSteps n S ts).filterMap fun t => exchange t.before t.input

variable {n S} {stores : N → LocalStorage} {sys : System N W AccountId Ledger Public}

/-- A step that gives the node no turn leaves it as it is. -/
theorem RanAlone.idle (h : RanAlone n S stores ts sys)
    {t : SystemStep N W AccountId Ledger Public} (noTurn : turnOf n t = none)
    (same : t.after.nodes n = sys.nodes n)
    (silent : t.outcome.log.filterMap (exchangeOf n) = []) :
    RanAlone n S stores (ts ++ [t]) t.after := by
  have noStep : nodeSteps n S (ts ++ [t]) = nodeSteps n S ts := by
    simp [nodeSteps, stepOf, noTurn]
  have noTurns : (ts ++ [t]).filterMap (turnOf n) = ts.filterMap (turnOf n) := by
    simp [noTurn]
  constructor
  · rw [noTurns]
    exact same.trans h.node
  · rw [noStep, noTurns]
    exact h.steps
  · rw [noStep, happened_concat, List.filterMap_append, silent, List.append_nil]
    exact h.exchanges

/-- The turn of another node. -/
theorem RanAlone.other (h : RanAlone n S stores ts sys)
    {t : SystemStep N W AccountId Ledger Public} {n' : N} (different : n' ≠ n)
    {own : Turn W (Round AccountId Ledger) (Request AccountId Public) Reply}
    (noTurn : turnOf n t = none) (hstep : t.outcome = (nodeTurn S n' own).run sys) :
    RanAlone n S stores (ts ++ [t]) t.after := by
  apply h.idle noTurn
  · show t.outcome.after.nodes n = _
    rw [hstep]
    exact Function.update_of_ne different.symm _ _
  · rw [hstep, log_nodeTurn]
    cases notice (sys.nodes n') own with
    | none => rfl
    | some what => cases what <;> simp [exchangeOf, different]

/-- A step that gives the node a turn is that turn. -/
theorem RanAlone.turn (h : RanAlone n S stores ts sys)
    {t : SystemStep N W AccountId Ledger Public}
    {own : Turn W (Round AccountId Ledger) (Request AccountId Public) Reply}
    (hbefore : t.before = sys) (hturn : turnOf n t = some own)
    (hstep : t.outcome = (nodeTurn S n own).run sys) :
    RanAlone n S stores (ts ++ [t]) t.after := by
  have steps : nodeSteps n S (ts ++ [t]) =
      nodeSteps n S ts ++ [fire (Foundation.turn (worker S n)) (sys.nodes n) own] := by
    simp [nodeSteps, stepOf, hturn, hbefore]
  have turns : (ts ++ [t]).filterMap (turnOf n) = ts.filterMap (turnOf n) ++ [own] := by
    simp [hturn]
  constructor
  · rw [turns, exec_concat]
    show t.outcome.after.nodes n = _
    rw [hstep]
    show Function.update sys.nodes n _ n = _
    rw [Function.update_self, h.node]
  · rw [steps, turns, exec_concat, h.steps, h.node]
  · have exchanged : t.outcome.log.filterMap (exchangeOf n) =
        (exchange (sys.nodes n) own).toList := by
      rw [hstep, log_nodeTurn, exchangeOf_noticed]
    rw [steps, happened_concat, List.filterMap_append, List.filterMap_append, exchanged,
      h.exchanges]
    cases he : exchange (sys.nodes n) own <;> simp [he]

end Schedules

/-! ## What a round submits -/

section Submissions

variable [DecidableEq AccountId] [Codec AccountId]
  (H : Host AccountId Public) (op : Round AccountId Ledger)

variable {H op} {met : List Sight} {es : Talk AccountId Ledger Public}

variable [Inhabited AccountId] [Codec DelegateInfo]

end Submissions

/-! ## Rounds of the network -/

section Rounds

variable [DecidableEq N] [DecidableEq W] [DecidableEq AccountId] [Inhabited AccountId]
  [Codec AccountId] [Codec (List ResultEntry)] [Codec DelegateInfo]
  {S : Setup N AccountId Ledger Public} {g : State AccountId Ledger}

end Rounds

end AbcDemo.Network
