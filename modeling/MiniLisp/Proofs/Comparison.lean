import MiniLisp.Proofs.Arithmetic
import MiniLisp.Proofs.Number.Order

namespace MiniLisp

namespace Builtin

open Number (Compared Extent)

/-- What a comparison asks of the places of two numbers among the values. -/
def order : Builtin → Extent → Extent → Prop
  | .equal => (· = ·)
  | .less => (· < ·)
  | .lessOrEqual => (· ≤ ·)
  | .greater => (· > ·)
  | .greaterOrEqual => (· ≥ ·)
  | _ => fun _ _ => False

/-- The comparison that holds the other way round. -/
def converse : Builtin → Builtin
  | .less => .greater
  | .lessOrEqual => .greaterOrEqual
  | .greater => .less
  | .greaterOrEqual => .lessOrEqual
  | b => b

section

variable {b : Builtin}

theorem order_converse (b : Builtin) (x y : Extent) : b.converse.order x y ↔ b.order y x := by
  cases b with
  | equal => exact eq_comm
  | less | lessOrEqual | greater | greaterOrEqual => exact Iff.rfl
  | add | subtract | multiply | divide => exact Iff.rfl

theorem converse_mem (comparison : b ∈ comparisons) : b.converse ∈ comparisons := by
  revert comparison
  cases b <;> decide

instance (b : Builtin) : IsTrans Extent b.order where
  trans x y z := by
    cases b with
    | equal => exact Eq.trans
    | less => exact lt_trans
    | lessOrEqual => exact le_trans
    | greater => exact gt_trans
    | greaterOrEqual => exact ge_trans
    | add | subtract | multiply | divide => exact fun impossible _ => impossible

theorem relates_iff (comparison : b ∈ comparisons) (x y : Float) :
    b.Relates x y ↔ Compared b.order x y := by
  cases b with
  | equal => exact Number.beq_iff
  | less => exact Number.lt_iff
  | lessOrEqual => exact Number.le_iff
  | greater => exact Number.lt_iff.trans Number.compared_swap
  | greaterOrEqual => exact Number.le_iff.trans Number.compared_swap
  | add | subtract | multiply | divide => exact absurd comparison (by decide)

/-- Two numbers or more are compared, as their places among the values are ordered in a row. -/
theorem call_comparison (comparison : b ∈ comparisons) {xs : List Float} (pair : 2 ≤ xs.length) :
    ∃ result : Bool, b.call (xs.map .number) = .ok (.boolean result) ∧
      (result = true ↔ xs.IsChain (Compared b.order)) := by
  obtain ⟨result, computed, neighbours⟩ := compute_comparison comparison pair
  have same : b.Relates = Compared b.order :=
    funext₂ fun x y => propext (relates_iff comparison x y)
  exact ⟨result, (call_map b xs).trans computed, same ▸ neighbours⟩

theorem isChain_iff_pairwise (b : Builtin) (xs : List Float) :
    xs.IsChain (Compared b.order) ↔ xs.Pairwise (Compared b.order) := by
  have : Trans (Compared b.order) (Compared b.order) (Compared b.order) := ⟨Compared.trans⟩
  exact List.isChain_iff_pairwise

theorem isChain_reverse (b : Builtin) (xs : List Float) :
    xs.reverse.IsChain (Compared b.converse.order) ↔ xs.IsChain (Compared b.order) := by
  have swapped (x y : Float) : Compared b.converse.order y x ↔ Compared b.order x y := by
    rw [Number.compared_swap]
    simp only [order_converse]
  rw [List.isChain_reverse]
  simp only [swapped]

theorem not_pairwise_of_nan {xs : List Float} (pair : 2 ≤ xs.length) (nan : Float.nan ∈ xs) :
    ¬ xs.Pairwise (Compared b.order) := by
  intro related
  obtain ⟨before, after, rfl⟩ := List.append_of_mem nan
  obtain ⟨_, behind, across⟩ := List.pairwise_append.mp related
  cases before with
  | cons x _ => exact (across x List.mem_cons_self _ List.mem_cons_self).ne_nan.2 rfl
  | nil =>
      cases after with
      | cons y _ => exact ((List.pairwise_cons.mp behind).1 y List.mem_cons_self).ne_nan.1 rfl
      | nil => simp at pair

end

/-- A comparison of two numbers or more is true if and only if what it asks holds of each number
and every later one: that both are numbers, and that their places among the values are so ordered,
with the infinities at the two ends. So it is false of numbers one of which is none. The converse
comparison of the numbers in reverse order comes to the same. -/
theorem comparison_relates_all_pairs :
    ∀ b ∈ comparisons, ∃ holds, b.relation? = some holds ∧
      (∀ x y, holds x y = true ↔ Compared b.order x y) ∧
      ∀ xs : List Float, 2 ≤ xs.length → ∃ result : Bool,
        b.call (xs.map .number) = .ok (.boolean result) ∧
        (result = true ↔ xs.Pairwise fun x y => holds x y = true) ∧
        ((∃ x ∈ xs, x.isNaN) → result = false) ∧
        b.converse.call (xs.reverse.map .number) = .ok (.boolean result) := by
  intro b comparison
  obtain ⟨holds, relation, relates⟩ := exists_relation comparison
  have compares (x y : Float) := (relates x y).trans (relates_iff comparison x y)
  refine ⟨holds, relation, compares, fun xs pair => ?_⟩
  obtain ⟨result, called, chain⟩ := call_comparison comparison pair
  have pairwise := chain.trans (isChain_iff_pairwise b xs)
  refine ⟨result, called, by simpa only [compares] using pairwise, ?_, ?_⟩
  · rintro ⟨x, member, nan⟩
    rw [Float.isNaN_eq_decide_eq_nan, decide_eq_true_iff] at nan
    rw [Bool.eq_false_iff]
    exact fun related => not_pairwise_of_nan pair (nan ▸ member) (pairwise.mp related)
  · have pair' : 2 ≤ xs.reverse.length := by rwa [List.length_reverse]
    obtain ⟨result', called', chain'⟩ := call_comparison (converse_mem comparison) pair'
    rw [called', Bool.eq_iff_iff.mpr (chain'.trans ((isChain_reverse b xs).trans chain.symm))]

/-- Both infinities and both zeros in order, and twice what is no number. -/
theorem comparison_relates_all_pairs_infinite :
    let xs := [-Number.infinity, -0.0, 0.0, Number.infinity]
    let none := [Number.notANumber, Number.notANumber]
    (lessOrEqual ∈ comparisons ∧ 2 ≤ xs.length ∧ xs.Pairwise (· ≤ ·)) ∧
      lessOrEqual.call (xs.map .number) = .ok (.boolean true) ∧
      greaterOrEqual.call (xs.reverse.map .number) = .ok (.boolean true) ∧
      (equal ∈ comparisons ∧ 2 ≤ none.length ∧ Number.notANumber.isNaN) ∧
      equal.call (none.map .number) = .ok (.boolean false) := by
  intro xs none
  have ordered : xs.Pairwise (· ≤ ·) := by decide +kernel
  have nan : Number.notANumber.isNaN = true := by decide +kernel
  obtain ⟨_, relation, _, compares⟩ := comparison_relates_all_pairs lessOrEqual (by decide)
  cases relation
  obtain ⟨_, called, pairs, _, reversed⟩ := compares xs (by decide)
  cases pairs.mpr (by simpa using ordered)
  obtain ⟨_, _, _, compares'⟩ := comparison_relates_all_pairs equal (by decide)
  obtain ⟨_, called', _, false, _⟩ := compares' none (by decide)
  cases false ⟨_, List.mem_cons_self, nan⟩
  exact ⟨⟨by decide, by decide, ordered⟩, called, reversed, ⟨by decide, by decide, nan⟩, called'⟩

end Builtin

end MiniLisp
