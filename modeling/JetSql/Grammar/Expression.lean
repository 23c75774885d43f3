/-
Expressions, read by precedence climbing. From loosest to tightest: `OR`, `AND`, `NOT`, the
comparisons and predicates, `&`, `+ -`, `MOD`, `\`, `* /`, and a leading minus sign. Operators of
one rank lean to the left.

**The budget bounds the tree.** Every way down costs one level of the budget: a parenthesis, the
arguments of a call, `NOT`, a minus sign, and each link of a chain of operators. The budget is what
the recursion runs on, so reading ends for every text; where it is spent the reading halts.

`operand` and `chain` are given the budget as a number. Their bodies, `operandOf` and `climb`, see
only what may be read one level down, as `Below`; `operand_eq` and `chain_eq` say so for every
budget at once.
-/

import JetSql.Grammar.Link
import JetSql.Tree.Conditional

namespace JetSql.Grammar

open Reader

/-- What may be read one level down. -/
structure Below where
  /-- An operand and all links that bind at least as tightly as given. -/
  operand : Nat → Reader Node
  /-- The links after a complete operand. -/
  chain : Nat → Node → Reader Node

/-- The error of a text that needs more levels than the limit. The statement is at level one, so
even under a limit of zero the first level not to be had is the second. -/
def beyondLimit (limit : Nat) : Error :=
  .tooDeep (max limit 1 + 1) limit

/-- One level down, if there is one. -/
def descend {α β : Type} (limit : Nat) (below : Option β) (next : β → Reader α) : Reader α :=
  match below with
  | none => halt (beyondLimit limit)
  | some below => next below

/-- The rank from which every operator is taken. -/
def loosest : Nat := 1

/-! ### Operands -/

/-- An argument of a call: a star, or an expression. -/
def argument (below : Below) : Reader Node :=
  (symbol "*" *> pure .star) <|> below.operand loosest

/-- The arguments of a call, in parentheses. -/
def arguments (limit : Nat) (below : Option Below) : Reader (List Node) := do
  symbol "("
  descend limit below fun below => do
    let args ← separated0 (symbol ",") (argument below)
    expecting .closingParenthesis (symbol ")")
    pure args

/-- An expression in parentheses. -/
def parenthesized (limit : Nat) (below : Option Below) : Reader Node := do
  char '('
  descend limit below fun below => do
    let inner ← below.operand loosest
    expecting .closingParenthesis (symbol ")")
    pure (.grouped inner)

/-- The conditional `IIF` and its arguments; a wrong number of them ends the reading. -/
def conditional (limit : Nat) (below : Option Below) : Reader Node := do
  keyword "IIF"
  let args ← arguments limit below
  match Node.conditionalOf args with
  | .ok node => pure node
  | .error error => halt error

/-- A call by name. -/
def call (limit : Nat) (below : Option Below) : Reader Node := do
  let callee ← name
  return .call callee (← arguments limit below)

/-- An operand without a leading `NOT` or minus sign. -/
def primary (limit : Nat) (below : Option Below) : Reader Node :=
  parenthesized limit below <|> conditional limit below <|> call limit below <|> literal
    <|> identifier

/-- An operand. `NOT` covers a comparison, a minus sign covers a primary alone. -/
def leading (limit : Nat) (below : Option Below) : Reader Node := do
  spacing
  if (← optional (keyword "NOT")).isSome then
    descend limit below fun below => return .not (← below.operand 4)
  else if (← optional (char '-')).isSome then
    descend limit below fun below => return .negate (← below.operand 10)
  else
    primary limit below

/-! ### Chains -/

/-- What follows a link, joined to the operand before it. The right operand binds more tightly than
the link; the bounds of `BETWEEN` bind more tightly than `AND`. -/
def Link.complete (below : Below) (left : Node) : Link → Reader Node
  | .logical op => return .logical left op (← below.operand (op.precedence + 1))
  | .compare op => return .compare left op (← expecting .rightOperand (below.operand 5))
  | .arithmetic op => return .arithmetic left op (← below.operand (op.precedence + 1))
  | .isNull negated => pure (.isNull left negated)
  | .inList negated => do
    expecting .valueList (symbol "(")
    let list ← separated1 (symbol ",") (below.operand loosest)
    expecting .closingParenthesis (symbol ")")
    pure (.inList left list negated)
  | .between negated => do
    let low ← below.operand 5
    expecting .and (keyword "AND")
    let high ← below.operand 5
    pure (.between left low high negated)

/-- The links after an operand, as long as they bind at least as tightly as `least`. -/
def climb (limit : Nat) (below : Option Below) (least : Nat) (left : Node) : Reader Node := fun s =>
  match Link.read s with
  | .ok (some link) rest =>
    if link.precedence < least then .ok left s
    else
      descend limit below (fun below => do
        let joined ← link.complete below left
        below.chain least joined) rest
  | .ok none _ | .miss .. => .ok left s
  | .halt error => .halt error

/-- An operand, and the links after it that bind at least as tightly as `least`. -/
def operandOf (limit : Nat) (below : Option Below) (least : Nat) : Reader Node := do
  let left ← leading limit below
  climb limit below least left

mutual

/-- An operand, and the links after it that bind at least as tightly as `least`. -/
def operand (limit : Nat) : Nat → Nat → Reader Node
  | 0, least => operandOf limit none least
  | budget + 1, least => operandOf limit (some ⟨operand limit budget, chain limit budget⟩) least

/-- The links after a complete operand that bind at least as tightly as `least`. -/
def chain (limit : Nat) : Nat → Nat → Node → Reader Node
  | 0, least, left => climb limit none least left
  | budget + 1, least, left =>
    climb limit (some ⟨operand limit budget, chain limit budget⟩) least left

end

/-- What may be read below a budget: nothing when it is spent. -/
def belowAt (limit : Nat) : Nat → Option Below
  | 0 => none
  | budget + 1 => some ⟨operand limit budget, chain limit budget⟩

theorem operand_eq (limit budget : Nat) :
    operand limit budget = operandOf limit (belowAt limit budget) := by
  cases budget <;> rfl

theorem chain_eq (limit budget : Nat) :
    chain limit budget = climb limit (belowAt limit budget) := by
  cases budget <;> rfl

/-- An expression. -/
def expression (limit budget : Nat) : Reader Node :=
  operand limit budget loosest

end JetSql.Grammar
