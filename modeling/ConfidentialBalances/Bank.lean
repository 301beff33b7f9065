import Mathlib.Algebra.BigOperators.Group.List.Basic
import Mathlib.Algebra.Order.Ring.Int

/-!
# A bank with balances that wait

What moving confidential tokens amounts to, with nothing encrypted. An account
has a public balance, a balance of its own, and credits that wait until its owner
applies them. Nothing is taken that is not there, and money enters by minting
alone.
-/

namespace Bank

/-- What an account holds. -/
structure Holding where
  /-- For everyone to see. -/
  shown : ℤ
  /-- Credited and not applied yet. -/
  pending : ℤ
  /-- The owner's to spend. -/
  available : ℤ
  deriving DecidableEq, Repr

namespace Holding

/-- An account without money. -/
def empty : Holding := ⟨0, 0, 0⟩

/-- All that it holds. -/
def total (holding : Holding) : ℤ := holding.shown + holding.pending + holding.available

/-- Money is made for it. -/
def mint (holding : Holding) (amount : Nat) : Holding :=
  { holding with shown := holding.shown + amount }

/-- Public money is credited to its owner. -/
def deposit (holding : Holding) (amount : Nat) : Holding :=
  { holding with shown := holding.shown - amount, pending := holding.pending + amount }

/-- Its credits are applied. -/
def apply (holding : Holding) : Holding :=
  { holding with pending := 0, available := holding.available + holding.pending }

/-- Its owner's money is shown. -/
def withdraw (holding : Holding) (amount : Nat) : Holding :=
  { holding with shown := holding.shown + amount, available := holding.available - amount }

/-- Its owner's money leaves. -/
def debit (holding : Holding) (amount : Nat) : Holding :=
  { holding with available := holding.available - amount }

/-- Money comes in. -/
def credit (holding : Holding) (amount : Nat) : Holding :=
  { holding with pending := holding.pending + amount }

section Total

variable (holding : Holding) (amount : Nat)

@[simp] theorem total_mint : (holding.mint amount).total = holding.total + amount := by
  simp only [total, mint]
  omega

@[simp] theorem total_deposit : (holding.deposit amount).total = holding.total := by
  simp only [total, deposit]
  omega

@[simp] theorem total_apply : holding.apply.total = holding.total := by
  simp only [total, apply]
  omega

@[simp] theorem total_withdraw : (holding.withdraw amount).total = holding.total := by
  simp only [total, withdraw]
  omega

@[simp] theorem total_debit : (holding.debit amount).total = holding.total - amount := by
  simp only [total, debit]
  omega

@[simp] theorem total_credit : (holding.credit amount).total = holding.total + amount := by
  simp only [total, credit]
  omega

end Total

/-- No balance is overdrawn. -/
structure Solid (holding : Holding) : Prop where
  /-- The public balance. -/
  shown : 0 ≤ holding.shown
  /-- The credits. -/
  pending : 0 ≤ holding.pending
  /-- The owner's balance. -/
  available : 0 ≤ holding.available

namespace Solid

variable {holding : Holding} {amount : Nat}

/-- Minting overdraws nothing. -/
theorem mint (solid : holding.Solid) : (holding.mint amount).Solid :=
  ⟨add_nonneg solid.shown (Int.natCast_nonneg _), solid.pending, solid.available⟩

/-- A covered deposit overdraws nothing. -/
theorem deposit (solid : holding.Solid) (covered : amount ≤ holding.shown) :
    (holding.deposit amount).Solid :=
  ⟨sub_nonneg.mpr covered, add_nonneg solid.pending (Int.natCast_nonneg _), solid.available⟩

/-- Applying overdraws nothing. -/
theorem apply (solid : holding.Solid) : holding.apply.Solid :=
  ⟨solid.shown, le_rfl, add_nonneg solid.available solid.pending⟩

/-- A covered withdraw overdraws nothing. -/
theorem withdraw (solid : holding.Solid) (covered : amount ≤ holding.available) :
    (holding.withdraw amount).Solid :=
  ⟨add_nonneg solid.shown (Int.natCast_nonneg _), solid.pending, sub_nonneg.mpr covered⟩

/-- A covered payment overdraws nothing. -/
theorem debit (solid : holding.Solid) (covered : amount ≤ holding.available) :
    (holding.debit amount).Solid :=
  ⟨solid.shown, solid.pending, sub_nonneg.mpr covered⟩

/-- Being paid overdraws nothing. -/
theorem credit (solid : holding.Solid) : (holding.credit amount).Solid :=
  ⟨solid.shown, add_nonneg solid.pending (Int.natCast_nonneg _), solid.available⟩

end Solid

end Holding

/-- What every account holds. -/
abbrev Books (α : Type) := α → Holding

/-- What may be entered in the books. -/
inductive Entry (α : Type)
  /-- An account is made ready, which moves nothing. -/
  | opened (account : α)
  /-- Money is made. -/
  | minted (account : α) (amount : Nat)
  /-- Public money is credited to its owner. -/
  | deposited (account : α) (amount : Nat)
  /-- All credits are applied. -/
  | applied (account : α)
  /-- The owner's money is shown. -/
  | withdrawn (account : α) (amount : Nat)
  /-- The owner's money is credited to an account. -/
  | transferred (source target : α) (amount : Nat)
  deriving DecidableEq, Repr

section Books

variable {α : Type} [DecidableEq α]

/-- Enter it, where the money is there. -/
def enter (books : Books α) : Entry α → Option (Books α)
  | .opened _ => some books
  | .minted account amount =>
    some (Function.update books account ((books account).mint amount))
  | .deposited account amount =>
    if amount ≤ (books account).shown then
      some (Function.update books account ((books account).deposit amount))
    else none
  | .applied account => some (Function.update books account (books account).apply)
  | .withdrawn account amount =>
    if amount ≤ (books account).available then
      some (Function.update books account ((books account).withdraw amount))
    else none
  | .transferred source target amount =>
    if amount ≤ (books source).available then
      let debited := Function.update books source ((books source).debit amount)
      some (Function.update debited target ((debited target).credit amount))
    else none

/-- Enter one after another. -/
def enterAll (books : Books α) (entries : List (Entry α)) : Option (Books α) :=
  entries.foldlM enter books

/-- What an entry adds to an account's total. -/
def Entry.gain (account : α) : Entry α → ℤ
  | .minted target amount => if account = target then amount else 0
  | .transferred source target amount =>
    (if account = target then (amount : ℤ) else 0) - if account = source then (amount : ℤ) else 0
  | _ => 0

/-- The money that an entry makes. -/
def Entry.made : Entry α → Nat
  | .minted _ amount => amount
  | _ => 0

variable {books books' : Books α} {entry : Entry α} {entries : List (Entry α)}

/-- The total of a rewritten account is the new one's. -/
theorem update_total (account : α) (holding : Holding) (other : α) :
    (Function.update books account holding other).total =
      (books other).total +
        if other = account then holding.total - (books account).total else 0 := by
  by_cases here : other = account
  · subst here
    rw [Function.update_self, if_pos rfl]
    omega
  · rw [Function.update_of_ne here, if_neg here]
    omega

/-- An entry changes totals by its gains. -/
theorem enter_total (entered : enter books entry = some books') (account : α) :
    (books' account).total = (books account).total + entry.gain account := by
  cases entry with
  | opened target =>
    obtain rfl := Option.some.inj entered
    simp [Entry.gain]
  | minted target amount =>
    obtain rfl := Option.some.inj entered
    simp [Entry.gain, update_total]
  | deposited target amount =>
    obtain ⟨-, result⟩ := Option.ite_none_right_eq_some.mp entered
    obtain rfl := Option.some.inj result
    simp [Entry.gain, update_total]
  | applied target =>
    obtain rfl := Option.some.inj entered
    simp [Entry.gain, update_total]
  | withdrawn target amount =>
    obtain ⟨-, result⟩ := Option.ite_none_right_eq_some.mp entered
    obtain rfl := Option.some.inj result
    simp [Entry.gain, update_total]
  | transferred source target amount =>
    obtain ⟨-, result⟩ := Option.ite_none_right_eq_some.mp entered
    obtain rfl := Option.some.inj result
    simp only [Entry.gain, update_total, Holding.total_debit, Holding.total_credit]
    split <;> split <;> omega

/-- Entries change totals by all their gains. -/
theorem enterAll_total (entered : enterAll books entries = some books') (account : α) :
    (books' account).total = (books account).total + (entries.map (Entry.gain account)).sum := by
  induction entries generalizing books with
  | nil =>
    obtain rfl := Option.some.inj entered
    simp
  | cons entry rest ih =>
    obtain ⟨next, first, later⟩ := Option.bind_eq_some_iff.mp entered
    have total := enter_total first account
    have rest := ih later
    rw [List.map_cons, List.sum_cons]
    omega

/-- An account that is rewritten solidly leaves the books solid. -/
theorem update_solid {account : α} {holding : Holding} (solid : ∀ other, (books other).Solid)
    (written : holding.Solid) (other : α) :
    (Function.update books account holding other).Solid := by
  by_cases here : other = account
  · subst here
    rwa [Function.update_self]
  · rw [Function.update_of_ne here]
    exact solid other

/-- Nothing that is entered overdraws. -/
theorem enter_solid (entered : enter books entry = some books')
    (solid : ∀ account, (books account).Solid) (account : α) : (books' account).Solid := by
  cases entry with
  | opened target =>
    obtain rfl := Option.some.inj entered
    exact solid account
  | minted target amount =>
    obtain rfl := Option.some.inj entered
    exact update_solid solid (solid target).mint account
  | deposited target amount =>
    obtain ⟨covered, result⟩ := Option.ite_none_right_eq_some.mp entered
    obtain rfl := Option.some.inj result
    exact update_solid solid ((solid target).deposit covered) account
  | applied target =>
    obtain rfl := Option.some.inj entered
    exact update_solid solid (solid target).apply account
  | withdrawn target amount =>
    obtain ⟨covered, result⟩ := Option.ite_none_right_eq_some.mp entered
    obtain rfl := Option.some.inj result
    exact update_solid solid ((solid target).withdraw covered) account
  | transferred source target amount =>
    obtain ⟨covered, result⟩ := Option.ite_none_right_eq_some.mp entered
    obtain rfl := Option.some.inj result
    have debited : ∀ other, (Function.update books source ((books source).debit amount)
        other).Solid := update_solid solid ((solid source).debit covered)
    exact update_solid debited (debited target).credit account

/-- Nothing that is ever entered overdraws. -/
theorem enterAll_solid (entered : enterAll books entries = some books')
    (solid : ∀ account, (books account).Solid) (account : α) : (books' account).Solid := by
  induction entries generalizing books with
  | nil =>
    obtain rfl := Option.some.inj entered
    exact solid account
  | cons entry rest ih =>
    obtain ⟨next, first, later⟩ := Option.bind_eq_some_iff.mp entered
    exact ih later (enter_solid first solid)

end Books

end Bank
