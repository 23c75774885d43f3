/-
Building an `IIF` from its arguments: there must be exactly three.
-/

import JetSql.Error
import JetSql.Tree.Basic

namespace JetSql.Node

/-- The conditional of an argument list. -/
def conditionalOf : List Node → Except Error Node
  | [condition, thenValue, elseValue] => .ok (conditional condition thenValue elseValue)
  | args => .error (.argumentCount args.length)

/-- An argument list makes a conditional exactly if it holds three arguments. -/
theorem conditionalOf_eq_ok_iff {args : List Node} {node : Node} :
    conditionalOf args = .ok node ↔
      ∃ condition thenValue elseValue, args = [condition, thenValue, elseValue] ∧
        node = conditional condition thenValue elseValue := by
  constructor
  · intro h
    unfold conditionalOf at h
    split at h
    · exact ⟨_, _, _, rfl, (Except.ok.inj h).symm⟩
    · cases h
  · rintro ⟨_, _, _, rfl, rfl⟩
    rfl

end JetSql.Node
