/-
Every rendered text is balanced, so parentheses around it enclose just that text.

* **`Composed.balanced`:** a text that is composed is balanced.
* **`balanced_renderAt`:** so is the text of a tree, if its names and literals are spelled so that they
  can be told from what surrounds them.
-/

import JetSql.Proofs.Target.Rendered

namespace JetSql.Target

open Node Renderer

variable {dialect : Dialect} {renderer : Renderer} {node : Node} {text mark : List Char}
  {found : List Quotation} {meets : Bool}

theorem isBare_of_isSkipped {c : Char} (h : isSkipped c = true) : isBare c = true := by
  simp only [isSkipped, Bool.and_eq_true] at h
  exact h.1.1

theorem balanced_of_isSkipped (h : text.all isSkipped = true) : Balanced text :=
  balanced_of_all (List.all_eq_true.mpr fun c hc => isBare_of_isSkipped (List.all_eq_true.mp h c hc))

theorem Parting.balanced (h : Parting mark) : Balanced mark := by
  obtain h | ⟨c, hc, rfl⟩ := h
  · rw [isMark, Bool.and_eq_true] at h
    exact balanced_of_isSkipped h.1
  · exact balanced_of_all (by rw [List.all_cons, List.all_cons, hc]; rfl)

/-- **A text that is composed is balanced.** -/
theorem Composed.balanced (h : Composed dialect text found meets) : Balanced text := by
  induction h with
  | plain h => exact balanced_of_isSkipped h
  | quoted hopens h => exact balanced_quoted (isQuote_of_opensQuote hopens) h
  | parens _ ih => exact ih.parens
  | minus _ _ ih => exact ih.cons (by decide)
  | between _ hmark _ ihfirst ihsecond => exact ihfirst.append (hmark.balanced.append ihsecond)

/-- The text of a node is balanced. -/
def Shows (visit : Node → Except Error String) (node : Node) : Prop :=
  ∀ text, visit node = .ok text → Balanced text.toList

/-- **The text of a tree is balanced.** -/
theorem balanced_renderAt (hcalls : renderer.CallsNames) (hnode : node.Everywhere Spelled)
    (levels : Nat) : Shows (renderer.renderAt levels) node :=
  fun text h =>
    (composed_renderAt (callsWords_of_callsNames hcalls) hnode levels text h).balanced

end JetSql.Target
