/-
Texts that begin with a minus sign.

A text begins with that of the left operand wherever nothing is written before it: in comparisons,
predicates, connectives and most arithmetic. So whether it begins with a minus sign is decided at the
end of the way down the left operands.

* **`begins_renderAt`:** the text of a tree begins with a minus sign exactly if `Node.signed` says so.
* **`doublesSign_of_formed`:** no sign of a formed tree stands right before another one.
-/

import JetSql.Proofs.Grammar.Form
import JetSql.Proofs.Renderer.Visits
import JetSql.Proofs.Target.Template

namespace JetSql

/-- Whether an operand is put in parentheses. -/
def Renderer.isParenthesized (parent : ArithOp) (onLeft : Bool) : Node → Bool
  | .arithmetic _ op _ => needsParens parent op onLeft
  | _ => false

/-- Whether the text of an operation begins with that of its left operand. -/
def Dialect.isInfix (dialect : Dialect) : ArithOp → Bool
  | .concat => false
  | .intDiv => dialect = .mysql
  | _ => true

/-- Whether the text of a node begins with a minus sign. -/
def Node.signed (dialect : Dialect) : Node → Bool
  | negate _ => true
  | selectItem expr _ | tableRef expr _ | orderItem expr _ | isNull expr _ => signed dialect expr
  | inList expr _ _ | between expr _ _ _ => signed dialect expr
  | join left _ _ _ | logical left _ _ | comparison left _ _ => signed dialect left
  | arithmetic left op _ =>
    dialect.isInfix op && !Renderer.isParenthesized op true left && signed dialect left
  | _ => false

namespace Target

open Node Renderer Text

/-- There is something to a text, and whether it begins with a minus sign. -/
def Begins (text : List Char) (signed : Bool) : Prop :=
  text.head?.map (· == '-') = some signed

instance {text : List Char} {signed : Bool} : Decidable (Begins text signed) :=
  inferInstanceAs (Decidable (_ = _))

/-- A node is rendered with a minus sign in front, or without, as it should be. -/
def Signs (dialect : Dialect) (visit : Node → Except Error String) (node : Node) : Prop :=
  ∀ text, visit node = .ok text → Begins text.toList (node.signed dialect)

variable {renderer : Renderer} {visit : Node → Except Error String} {node : Node} {signed : Bool}

/-! ### Texts -/

/-- A text that begins with something else than a minus sign. -/
def Unsigned (text : List Char) : Prop :=
  text.head?.any (fun c => c != '-') = true

theorem Unsigned.append {first : List Char} (h : Unsigned first) (second : List Char) :
    Unsigned (first ++ second) := by
  cases first with
  | nil => cases h
  | cons c first => exact h

theorem Begins.append {first : List Char} (h : Begins first signed) (second : List Char) :
    Begins (first ++ second) signed := by
  cases first with
  | nil => cases h
  | cons c first => exact h

theorem begins_of_unsigned {text : List Char} (h : Unsigned text) : Begins text false := by
  cases text with
  | nil => cases h
  | cons c text =>
    have hc : c ≠ '-' := by simpa [Unsigned] using h
    simp [Begins, hc]

theorem unsigned_of_begins {text : List Char} (h : Begins text false) : Unsigned text := by
  cases text with
  | nil => cases h
  | cons c text =>
    have hc : c ≠ '-' := by simpa [Begins] using h
    simp [Unsigned, hc]

theorem unsigned_of_isTokenChar {text : List Char} (hne : text ≠ [])
    (h : text.all isTokenChar = true) : Unsigned text := by
  obtain ⟨c, text, rfl⟩ := List.exists_cons_of_ne_nil hne
  rw [List.all_cons, Bool.and_eq_true] at h
  have hc : c ≠ '-' := by
    rintro rfl
    exact absurd h.1 (by decide)
  simpa [Unsigned] using hc

theorem unsigned_partsText {parts : List Part} (hne : parts ≠ [])
    (h : ∀ part ∈ parts, part.Spelled) : Unsigned (renderer.partsText parts).toList := by
  obtain ⟨⟨name, bracketed⟩, parts, rfl⟩ := List.exists_cons_of_ne_nil hne
  have hpart : Unsigned (renderer.partText ⟨name, bracketed⟩).toList := by
    cases bracketed with
    | false =>
      obtain ⟨hne, hword⟩ := isTokenChar_of_isWord (h ⟨name, false⟩ List.mem_cons_self rfl)
      exact unsigned_of_isTokenChar hne hword
    | true =>
      rw [partText, if_pos rfl, Dialect.quoteName, String.toList_ofList, enclose]
      cases renderer.dialect <;> rfl
  have htext := intercalate_map_cons ['.'] (fun part => (renderer.partText part).toList)
    ⟨name, bracketed⟩ parts
  rw [partsText, String.toList_intercalate, List.map_map]
  exact htext ▸ hpart.append _

theorem unsigned_literalText {value : Literal} (hvalue : value.Formed)
    (h : renderer.literalText value = .ok text) : Unsigned text.toList := by
  obtain ⟨dialect, renames, maxDepth⟩ := renderer
  have hquote (s : String) : Unsigned ("'" ++ s).toList := by simp [Unsigned]
  cases value with
  | string value quote =>
    obtain rfl := Except.ok.inj h
    rw [stringText, String.append_assoc]
    exact hquote _
  | number value =>
    obtain rfl := Except.ok.inj h
    obtain ⟨hne, hnumber⟩ := isTokenChar_of_isNumber hvalue
    exact unsigned_of_isTokenChar hne hnumber
  | bool value =>
    obtain rfl := Except.ok.inj h
    cases dialect <;> cases value <;> simp [Unsigned, Dialect.boolean]
  | null =>
    obtain rfl := Except.ok.inj h
    simp [Unsigned]
  | date value =>
    simp only [literalText, bind_eq_ok, pure_eq_ok] at h
    obtain ⟨moment, -, rfl⟩ := h
    cases moment <;> cases dialect <;>
      simp [Unsigned, momentText, Dialect.date, Dialect.timestamp]

/-- A text that begins with a text. -/
theorem begins_append {first : String} (h : Begins first.toList signed) (second : String) :
    Begins (first ++ second).toList signed := by
  rw [String.toList_append]
  exact h.append _

theorem operandText_eq (parent : ArithOp) (onLeft : Bool) (operand : Node) (text : String) :
    operandText parent onLeft operand text =
      if isParenthesized parent onLeft operand then "(" ++ text ++ ")" else text := by
  unfold operandText isParenthesized
  split <;> simp

theorem begins_operandText {parent : ArithOp} {onLeft : Bool} {text : String}
    (h : Begins text.toList signed) : Begins (operandText parent onLeft node text).toList
      (!isParenthesized parent onLeft node && signed) := by
  rw [operandText_eq]
  cases isParenthesized parent onLeft node with
  | true =>
    rw [if_pos rfl, String.append_assoc]
    exact begins_append (by decide : Begins "(".toList false) _
  | false =>
    rw [if_neg Bool.false_ne_true]
    exact h

theorem begins_arithmeticText {op : ArithOp} {left right : String} (hop : op ≠ .concat)
    (h : Begins left.toList signed) : Begins (renderer.arithmeticText op left right).toList
      (renderer.dialect.isInfix op && signed) := by
  obtain ⟨dialect, renames, maxDepth⟩ := renderer
  cases op with
  | concat => exact absurd rfl hop
  | intDiv =>
    cases dialect with
    | mysql => simpa [arithmeticText, Dialect.intDiv, Dialect.isInfix] using h.append _
    | postgres | sqlite => simp [arithmeticText, Dialect.intDiv, Dialect.isInfix, Begins]
  | _ => simpa [arithmeticText, Dialect.isInfix] using h.append _

theorem begins_concat (dialect : Dialect) {parts : List String} (hne : parts ≠ []) :
    Begins (dialect.concat parts).toList false := by
  cases dialect with
  | postgres | mysql => simp [Dialect.concat, Begins]
  | sqlite =>
    obtain ⟨part, parts, rfl⟩ := List.exists_cons_of_ne_nil hne
    rw [toList_concat_sqlite, intercalate_map_cons, coalesced_eq, List.append_assoc]
    exact Begins.append (by decide) _

theorem begins_negateText (text : String) : Begins (negateText node text).toList true := by
  unfold negateText
  split <;> simp [Begins]

theorem begins_conditionalText {condition thenValue elseValue : Node} {text : String}
    (h : conditionalText visit condition thenValue elseValue = .ok text) :
    Begins text.toList false := by
  obtain ⟨shown, -, thenText, -, elseText, -, rfl⟩ := conditionalText_eq_ok.mp h
  simp [Begins]

/-! ### Nodes -/

theorem concatOperands_ne_nil (node : Node) : concatOperands node ≠ [] := by
  fun_cases concatOperands node <;> simp

/-- **The text of one node begins with a minus sign or not, if those of the nodes below it do.** -/
theorem begins_nodeText (hcalls : CallsWords renderer)
    (hvisit : ∀ child ∈ node.children, Signs renderer.dialect visit child) (hnode : node.Spelled) :
    Signs renderer.dialect (renderer.nodeText visit) node := by
  intro text h
  have hfirst (child : Node) (hchild : child ∈ node.children) (rest : String) {shown : String}
      (hshown : visit child = .ok shown) :
      Begins (shown ++ rest).toList (child.signed renderer.dialect) :=
    begins_append (hvisit child hchild _ hshown) rest
  cases node with
  | query clauses =>
    simp only [nodeText, selectText, bind_eq_ok, pure_eq_ok] at h
    obtain ⟨items, -, tables, -, condition, -, groups, -, having, -, orders, -, rfl⟩ := h
    have hopening :
        Begins (if clauses.distinct then "SELECT DISTINCT " else "SELECT ").toList false := by
      split <;> decide
    simp only [String.append_assoc]
    exact begins_append hopening _
  | selectItem expr asName | tableRef expr asName =>
    simp only [nodeText, bind_eq_ok, pure_eq_ok] at h
    obtain ⟨shown, hshown, rfl⟩ := h
    exact hfirst expr (by simp [children]) _ hshown
  | join left kind right on =>
    simp only [nodeText, bind_eq_ok, pure_eq_ok] at h
    obtain ⟨shown, hshown, rightText, -, onText, -, rfl⟩ := h
    simp only [String.append_assoc]
    exact hfirst left (by simp [children]) _ hshown
  | orderItem expr order =>
    cases order with
    | none => exact hvisit expr (by simp [children]) text h
    | some order =>
      simp only [nodeText, bind_eq_ok, pure_eq_ok] at h
      obtain ⟨shown, hshown, rfl⟩ := h
      simp only [String.append_assoc]
      exact hfirst expr (by simp [children]) _ hshown
  | logical left op right =>
    simp only [nodeText, bind_eq_ok, pure_eq_ok] at h
    obtain ⟨shown, hshown, rightText, -, rfl⟩ := h
    simp only [String.append_assoc]
    exact hfirst left (by simp [children]) _ hshown
  | not expr =>
    simp only [nodeText, bind_eq_ok, pure_eq_ok] at h
    obtain ⟨shown, -, rfl⟩ := h
    exact begins_append (by decide : Begins "NOT ".toList false) _
  | comparison left op right =>
    rcases cases_of_comparisonText h with ⟨_, _, _, rfl, h⟩ | ⟨-, shown, _, _, hshown, -, -, rfl⟩
    · exact begins_conditionalText h
    · simp only [String.append_assoc]
      exact hfirst left (by simp [children]) _ hshown
  | operator op =>
    obtain rfl := Except.ok.inj h
    exact (by cases op <;> decide : Begins op.symbol.toList false)
  | isNull expr negated =>
    simp only [nodeText, bind_eq_ok, pure_eq_ok] at h
    obtain ⟨shown, hshown, rfl⟩ := h
    simp only [String.append_assoc]
    exact hfirst expr (by simp [children]) _ hshown
  | inList expr list negated =>
    simp only [nodeText, bind_eq_ok, pure_eq_ok] at h
    obtain ⟨shown, hshown, listed, -, rfl⟩ := h
    simp only [String.append_assoc]
    exact hfirst expr (by simp [children]) _ hshown
  | between expr low high negated =>
    simp only [nodeText, bind_eq_ok, pure_eq_ok] at h
    obtain ⟨shown, hshown, lowText, -, highText, -, rfl⟩ := h
    simp only [String.append_assoc]
    exact hfirst expr (by simp [children]) _ hshown
  | arithmetic left op right =>
    by_cases hop : op = .concat
    · subst hop
      simp only [nodeText, bind_eq_ok, pure_eq_ok, mapM_eq_ok] at h
      obtain ⟨parts, hparts, rfl⟩ := h
      refine begins_concat renderer.dialect ?_
      rintro rfl
      exact concatOperands_ne_nil _ (List.forall₂_nil_right_iff.mp hparts)
    · simp only [nodeText, bind_eq_ok, pure_eq_ok] at h
      obtain ⟨leftText, hleft, rightText, -, rfl⟩ := h
      rw [Node.signed, Bool.and_assoc]
      exact begins_arithmeticText hop
        (begins_operandText (hvisit left (by simp [children]) _ hleft))
  | negate expr =>
    simp only [nodeText, bind_eq_ok, pure_eq_ok] at h
    obtain ⟨shown, -, rfl⟩ := h
    exact begins_negateText shown
  | conditional condition thenValue elseValue => exact begins_conditionalText h
  | call callee args =>
    simp only [nodeText, bind_eq_ok, pure_eq_ok] at h
    obtain ⟨listed, -, rfl⟩ := h
    have htarget := isTokenChar_of_callsWords hcalls hnode
    rw [String.append_assoc, String.append_assoc]
    by_cases hne : (renderer.targetName callee).toList = []
    · rw [String.toList_append, hne]
      exact begins_append (by decide : Begins "(".toList false) _
    · exact begins_append (begins_of_unsigned (unsigned_of_isTokenChar hne htarget)) _
  | grouped expr =>
    simp only [nodeText, bind_eq_ok, pure_eq_ok] at h
    obtain ⟨shown, -, rfl⟩ := h
    simp [Begins, Node.signed]
  | identifier parts =>
    obtain rfl := Except.ok.inj h
    exact begins_of_unsigned (unsigned_partsText hnode.1 hnode.2)
  | literal value => exact begins_of_unsigned (unsigned_literalText hnode h)
  | star =>
    obtain rfl := Except.ok.inj h
    exact (by decide : Begins "*".toList false)
  | qualifiedStar parts =>
    obtain rfl := Except.ok.inj h
    exact begins_append (begins_of_unsigned (unsigned_partsText hnode.1 hnode.2)) _
  | crosstab => cases h

/-- **The text of a tree begins with a minus sign exactly if the tree is signed.** -/
theorem begins_renderAt (hcalls : CallsWords renderer) (hnode : node.Everywhere Spelled)
    (levels : Nat) : Signs renderer.dialect (renderer.renderAt levels) node := by
  induction levels generalizing node with
  | zero => exact fun _ h => nomatch h
  | succ levels ih =>
    obtain ⟨hspelled, hbelow⟩ := everywhere_iff.mp hnode
    exact begins_nodeText hcalls (fun child hchild => ih (hbelow child hchild)) hspelled

end Target

namespace Node

/-! ### Signs in trees -/

/-- Whether a node is a leading minus sign that stands right before another one in the text. -/
def doublesSign (dialect : Dialect) : Node → Bool
  | negate (arithmetic ..) | negate (negate _) => false
  | negate expr => expr.signed dialect
  | _ => false

/-- Whether any of the nodes that are rendered is such a sign. -/
def signsMeet (dialect : Dialect) (node : Node) : Bool :=
  (node.visits 1).any fun visit => visit.2.doublesSign dialect

/-- Which nodes are visited does not depend on the level of the root. -/
theorem map_snd_visits (level level' : Nat) (node : Node) :
    (node.visits level).map Prod.snd = (node.visits level').map Prod.snd := by
  rw [visits_eq, visits_eq, List.map_cons, List.map_cons, List.map_flatMap, List.map_flatMap]
  exact congrArg (node :: ·) (List.flatMap_congr fun child _ =>
    map_snd_visits (level + 1) (level' + 1) child)
termination_by node
decreasing_by exact sizeOf_lt_of_mem_visited (by assumption)

/-- The signs of the nodes that are rendered are that of the root and those below it. -/
theorem signsMeet_eq (dialect : Dialect) (node : Node) : node.signsMeet dialect =
    (node.doublesSign dialect || node.shown.any (signsMeet dialect)) := by
  have hlevel (child : Node) : child.signsMeet dialect =
      (child.visits 2).any fun visit => visit.2.doublesSign dialect := by
    have hvisits := congrArg (List.any · (doublesSign dialect)) (map_snd_visits 1 2 child)
    simpa [signsMeet, List.any_map, Function.comp_def] using hvisits
  rw [signsMeet, visits_eq, List.any_cons, List.any_flatMap, ← (visited_perm_shown node).any_eq]
  exact congrArg (node.doublesSign dialect || node.visited.any ·) (funext fun child => (hlevel child).symm)

theorem signsMeet_of_shown {dialect : Dialect} {node : Node} (h : node.doublesSign dialect = false) :
    node.signsMeet dialect = node.shown.any (signsMeet dialect) := by
  rw [signsMeet_eq, h, Bool.false_or]

/-- Where no node of a tree stands right before a minus sign with one, no signs meet. -/
theorem Everywhere.signsMeet {dialect : Dialect} {node : Node}
    (h : node.Everywhere fun node => node.doublesSign dialect = false) :
    node.signsMeet dialect = false := by
  rw [signsMeet_of_shown (everywhere_iff.mp h).1, List.any_eq_false]
  intro child hchild
  rw [Everywhere.signsMeet (everywhere_of_mem_shown h hchild)]
  exact Bool.false_ne_true
termination_by node
decreasing_by exact sizeOf_lt_of_mem_shown hchild

end Node

/-! ### Formed trees -/

namespace Grammar

open Node

/-- **What a minus sign stands before in a formed tree does not begin with one**, unless it is put in
parentheses. -/
theorem doublesSign_of_formed {role : Role} {node : Node} (dialect : Dialect)
    (h : Formed role node) : node.doublesSign dialect = false := by
  induction h with
  | argument _ ih | factor _ ih | query _ ih => exact ih
  | @negate expr hexpr hspine =>
    cases hexpr with
    | @logical _ _ op =>
      have hop := Nat.le_trans hspine (Nat.min_le_left _ _)
      exact absurd (Link.logical op).precedence_lt (Nat.not_lt.mpr hop)
    | compare | isNull | inList | between =>
      exact absurd (Nat.le_trans hspine (Nat.min_le_left _ _)) (by decide)
    | _ => rfl
  | _ => rfl

/-- No signs meet in the text of a formed tree. -/
theorem signsMeet_of_formed {role : Role} {node : Node} (dialect : Dialect) (h : Formed role node) :
    node.signsMeet dialect = false :=
  (h.everywhere (doublesSign_of_formed dialect) fun _ => rfl).signsMeet

end Grammar

end JetSql
