import Mathlib.Logic.Function.Basic
import MiniLisp.Store.Basic

namespace MiniLisp

/-- Different symbols keep different names, and keywords keep their own. -/
structure Renaming (f : Symbol → Symbol) : Prop where
  injective : Function.Injective f
  keyword : ∀ k : Keyword, f ⟨k.name⟩ = ⟨k.name⟩

namespace Value

mutual

def rename (f : Symbol → Symbol) : Value → Value
  | .symbol x => .symbol (f x)
  | .list items => .list (renameAll f items)
  | .closure params body frame => .closure (params.rename f) (body.rename f) frame
  | .number n => .number n
  | .boolean b => .boolean b
  | .builtin b => .builtin b
  | .foreign v => .foreign v

def renameAll (f : Symbol → Symbol) : List Value → List Value
  | [] => []
  | v :: rest => v.rename f :: renameAll f rest

end

variable {f : Symbol → Symbol}

theorem renameAll_eq_map (items : List Value) : renameAll f items = items.map (rename f) := by
  induction items with
  | nil => rfl
  | cons v rest ih => rw [renameAll, ih, List.map_cons]

@[simp]
theorem rename_list (items : List Value) :
    (Value.list items).rename f = .list (items.map (rename f)) := by
  rw [rename, renameAll_eq_map]

mutual

@[simp]
theorem nesting_rename : (v : Value) → (v.rename f).nesting = v.nesting
  | .list items => congrArg (· + 1) (nestingAll_renameAll items)
  | .symbol _ | .closure .. | .number _ | .boolean _ | .builtin _ | .foreign _ => rfl

theorem nestingAll_renameAll : (items : List Value) →
    nestingAll (renameAll f items) = nestingAll items
  | [] => rfl
  | v :: rest => congrArg₂ max (nesting_rename v) (nestingAll_renameAll rest)

end

/-- A list of symbols stays one. -/
theorem formals?_rename (params : Value) :
    (params.rename f).formals? = params.formals?.map (List.map f) := by
  have symbol (v : Value) : (v.rename f).symbol? = v.symbol?.map f := by
    cases v <;> rfl
  cases params with
  | list items =>
      rw [rename_list]
      simp only [formals?]
      induction items with
      | nil => rfl
      | cons v rest ih =>
          rw [List.map_cons, List.mapM_cons, List.mapM_cons, symbol, ih]
          cases v.symbol? with
          | none => rfl
          | some x => cases rest.mapM symbol? <;> rfl
  | symbol | closure | number | boolean | builtin | foreign => rfl

end Value

namespace Renaming

variable {f : Symbol → Symbol} (consistent : Renaming f)
include consistent

theorem keyword_iff {x : Symbol} {k : Keyword} : k.name = (f x).name ↔ k.name = x.name := by
  have fixed := consistent.keyword k
  constructor
  · intro same
    have image : f x = f ⟨k.name⟩ := by rw [fixed, same]
    rw [consistent.injective image]
  · intro same
    have spelled : x = ⟨k.name⟩ := by rw [same]
    rw [spelled, fixed]

@[simp]
theorem keyword?_rename (head : Value) : (head.rename f).keyword? = head.keyword? := by
  cases head with
  | symbol x =>
      refine Option.ext fun k => ?_
      simp only [Value.rename, Value.keyword?, Keyword.ofName?_eq_some_iff]
      exact consistent.keyword_iff
  | list | closure | number | boolean | builtin | foreign => rfl

end Renaming

end MiniLisp
