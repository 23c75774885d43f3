/-
Minus signs side by side.

Outside of quotes two minus signs begin a comment. The only sign that is written right before another
text is a leading minus sign, and only arithmetic and a second leading minus sign are put in
parentheses after it. A comparison, a predicate or a connective is not, although its text begins with
that of its left operand.

* **`Composed.comments`:** every comment in a text that is composed comes of minus signs that meet.
* **`comments_renderAt`:** so every comment in the text of a tree comes of a sign right before an
  operand whose text begins with another one.
* **`commented_render_iff`:** so a tree is rendered without a comment exactly if no node of it that is
  rendered is a sign before such an operand.
* **`commented_of_compared`:** so there are trees with a comment in their text.
-/

import JetSql.Proofs.Target.Contained

namespace JetSql

namespace Target

open Node Renderer Text

/-! ### Comments -/

/-- Whether two minus signs stand side by side outside of quotes, in a text that begins inside of the
quotes that are given, if any. A pair of quotes inside of quotes leaves them and enters them again. -/
def commented (dialect : Dialect) : Option Char → List Char → Bool
  | _, [] => false
  | some quote, c :: s => commented dialect (if c = quote then none else some quote) s
  | none, c :: s =>
    c == '-' && s.head? == some '-' ||
      commented dialect (if opensQuote dialect c then some c else none) s

/-- Whether there is a comment in a text, which ends outside of quotes and not with a minus sign. -/
def Comments (dialect : Dialect) (text : List Char) (found : Bool) : Prop :=
  ∀ rest, commented dialect none (text ++ rest) = (found || commented dialect none rest)

variable {dialect : Dialect} {renderer : Renderer} {node : Node} {first second text mark : List Char}
  {quotations : List Quotation} {found found' signed : Bool} {quote c : Char}

theorem comments_nil : Comments dialect [] false :=
  fun _ => rfl

theorem Comments.append (hfirst : Comments dialect first found)
    (hsecond : Comments dialect second found') :
    Comments dialect (first ++ second) (found || found') := by
  intro rest
  rw [List.append_assoc, hfirst, hsecond, Bool.or_assoc]

/-- A character that neither opens quotes nor may begin a comment. -/
def isCalm (c : Char) : Bool :=
  !isQuote c && c != '-'

theorem Comments.cons (h : Comments dialect text found) (hc : isCalm c = true) :
    Comments dialect (c :: text) found := by
  intro rest
  simp only [isCalm, Bool.and_eq_true, Bool.not_eq_true', bne_iff_ne] at hc
  rw [List.cons_append, commented, beq_eq_false_iff_ne.mpr hc.2, Bool.false_and, Bool.false_or,
    opensQuote_of_isQuote_eq_false hc.1, if_neg Bool.false_ne_true, h]

theorem comments_of_all (h : text.all isCalm = true) : Comments dialect text false := by
  induction text with
  | nil => exact comments_nil
  | cons c text ih =>
    rw [List.all_cons, Bool.and_eq_true] at h
    exact (ih h.2).cons h.1

/-- A minus sign begins a comment if the text after it begins with one. -/
theorem Comments.minus (h : Comments dialect text found) (hbegins : Begins text signed) :
    Comments dialect ('-' :: text) (signed || found) := by
  intro rest
  cases text with
  | nil => cases hbegins
  | cons c text =>
    have hsign : (((c :: text) ++ rest).head? == some '-') = signed := Option.some.inj hbegins
    rw [List.cons_append, commented, hsign, beq_self_eq_true, Bool.true_and,
      opensQuote_of_isQuote_eq_false rfl, if_neg Bool.false_ne_true, h, Bool.or_assoc]

/-- Quotes are left at the quote that ends them. -/
theorem commented_quoted (hquote : isQuote quote = true) (hopens : opensQuote dialect quote = true)
    (h : paired quote text = true) (rest : List Char) :
    commented dialect (some quote) (text ++ quote :: rest) = commented dialect none rest := by
  have hopen (s : List Char) :
      commented dialect none (quote :: s) = commented dialect (some quote) s := by
    have hne : quote ≠ '-' := by
      rintro rfl
      cases hquote
    rw [commented, beq_eq_false_iff_ne.mpr hne, Bool.false_and, Bool.false_or, if_pos hopens]
  fun_induction paired quote text with
  | case1 => rw [List.nil_append, commented, if_pos rfl]
  | case2 c =>
    have hc : c ≠ quote := by simpa using h
    rw [List.cons_append, List.nil_append, commented, if_neg hc, commented, if_pos rfl]
  | case3 d text ih =>
    rw [Bool.and_eq_true, beq_iff_eq] at h
    obtain ⟨rfl, h⟩ := h
    rw [List.cons_append, List.cons_append, commented, if_pos rfl, hopen, ih h]
  | case4 c d text hc ih =>
    rw [List.cons_append, commented, if_neg hc, ih h]

theorem comments_quoted (hquote : isQuote quote = true) (hopens : opensQuote dialect quote = true)
    (h : paired quote text = true) : Comments dialect (quote :: (text ++ [quote])) false := by
  have hne : quote ≠ '-' := by
    rintro rfl
    cases hquote
  intro rest
  rw [List.cons_append, commented, beq_eq_false_iff_ne.mpr hne, Bool.false_and, Bool.false_or,
    if_pos hopens, List.append_assoc, List.singleton_append, commented_quoted hquote hopens h,
    Bool.false_or]

theorem Comments.parens (h : Comments dialect text found) :
    Comments dialect ('(' :: (text ++ [')'])) found := by
  have hclose : Comments dialect [')'] false := comments_of_all (by decide)
  simpa using (h.append hclose).cons (by decide : isCalm '(' = true)

/-! ### Composed texts -/

theorem comments_of_isSkipped (h : text.all isSkipped = true) : Comments dialect text false := by
  refine comments_of_all (List.all_eq_true.mpr fun c hc => ?_)
  have hskipped := List.all_eq_true.mp h c hc
  simp only [isSkipped, isBare, Bool.and_eq_true, Bool.not_eq_true', Bool.or_eq_false_iff] at hskipped
  simp [isCalm, hskipped.1.1.1.1, bne_iff_ne.mp hskipped.1.2]

/-- A minus sign with a blank after it begins no comment. -/
theorem Parting.comments (h : Parting mark) : Comments dialect mark false := by
  obtain h | ⟨c, hc, rfl⟩ := h
  · rw [isMark, Bool.and_eq_true] at h
    exact comments_of_isSkipped h.1
  · have hblank : Comments dialect [' '] false := comments_of_all (by decide)
    have hsign : Comments dialect [c, ' '] false := by
      by_cases hminus : c = '-'
      · subst hminus
        exact hblank.minus (by decide : Begins [' '] false)
      · have hquote : isQuote c = false := by
          simp only [isBare, Bool.not_eq_true', Bool.or_eq_false_iff] at hc
          exact hc.1.1
        exact hblank.cons (by simp [isCalm, hquote, hminus])
    exact hsign.cons (by decide)

/-- **Every comment in a text comes of minus signs that meet in it.** -/
theorem Composed.comments (h : Composed dialect text quotations found) :
    Comments dialect text found := by
  induction h with
  | plain h => exact comments_of_isSkipped h
  | quoted hopens h => exact comments_quoted (isQuote_of_opensQuote hopens) hopens h
  | parens _ ih => exact ih.parens
  | minus _ hbegins ih => exact ih.minus hbegins
  | between _ hmark _ ihfirst ihsecond =>
    simpa using ihfirst.append (hmark.comments.append ihsecond)

/-- The comments in the text of a node are those that its signs make. -/
def Tells (renderer : Renderer) (visit : Node → Except Error String) (node : Node) : Prop :=
  ∀ text, visit node = .ok text →
    Comments renderer.dialect text.toList (node.signsMeet renderer.dialect)

/-- **The comments in the text of a tree are those that its signs make.** -/
theorem comments_renderAt (hcalls : renderer.CallsNames) (hnode : node.Everywhere Spelled)
    (levels : Nat) : Tells renderer (renderer.renderAt levels) node :=
  fun text h =>
    (composed_renderAt (callsWords_of_callsNames hcalls) hnode levels text h).comments

end Target

open Grammar Node Renderer Target

/-- **When a comment is written.** There are two minus signs side by side outside of quotes exactly if
one of the nodes that are rendered is a leading minus sign before an operand that is neither
arithmetic nor such a sign, and the text of the operand begins with a minus sign. -/
theorem commented_render_iff {dialect : Dialect} {maxDepth : Nat} {tree : Node} {text : String}
    (hspelled : tree.Everywhere Spelled)
    (h : ((ofDialect dialect).withMaxDepth maxDepth).render tree = .ok text) :
    commented dialect none text.toList = true ↔
      ∃ visit ∈ tree.visits 1, visit.2.doublesSign dialect = true := by
  have hcalls : ((ofDialect dialect).withMaxDepth maxDepth).CallsNames := callsNames_ofDialect dialect
  have hcomments : commented dialect none (text.toList ++ []) = (tree.signsMeet dialect || false) :=
    comments_renderAt hcalls hspelled maxDepth text h []
  rw [List.append_nil, Bool.or_false] at hcomments
  rw [hcomments]
  exact List.any_eq_true

/-- A leading minus sign before `-a = b`. -/
def compared : Node :=
  .negate (.compare (.negate (.identifier [⟨"a", false⟩])) .eq (.identifier [⟨"b", false⟩]))

theorem writable_compared : compared.Everywhere Writable := by
  have hname {name : String} (h : IsName name) :
      (Node.identifier [⟨name, false⟩]).Everywhere Writable :=
    everywhere_iff.mpr ⟨⟨List.cons_ne_nil _ _, List.forall_mem_singleton.mpr h⟩, nofun⟩
  have ha := hname (isName_of_toUpper "A" (by decide) (by decide) (by decide) : IsName "a")
  have hb := hname (isName_of_toUpper "B" (by decide) (by decide) (by decide) : IsName "b")
  have hop : (Node.operator .eq).Everywhere Writable := everywhere_iff.mpr ⟨trivial, nofun⟩
  have hnegate : (Node.negate (.identifier [⟨"a", false⟩])).Everywhere Writable :=
    everywhere_iff.mpr ⟨trivial, by simp [children, ha]⟩
  have hcompare : (Node.compare (.negate (.identifier [⟨"a", false⟩])) .eq
      (.identifier [⟨"b", false⟩])).Everywhere Writable :=
    everywhere_iff.mpr ⟨trivial, by simp [Node.compare, children, hnegate, hop, hb]⟩
  exact everywhere_iff.mpr ⟨trivial, List.forall_mem_singleton.mpr hcompare⟩

theorem render_compared (dialect : Dialect) :
    (ofDialect dialect).render compared = .ok "--a = b" := by
  cases dialect <;> rfl

/-- Two leading minus signs with a comparison between them. -/
theorem commented_render_iff_compared :
    compared.Everywhere Spelled ∧ (ofDialect .mysql).render compared = .ok "--a = b" ∧
      commented .mysql none "--a = b".toList = true := by
  have hspelled : compared.Everywhere Spelled := fun entry hentry =>
    (writable_compared entry hentry).spelled
  refine ⟨hspelled, render_compared .mysql, ?_⟩
  refine (@commented_render_iff .mysql 64 _ _ hspelled (render_compared .mysql)).mpr
    ⟨(1, compared), ?_, rfl⟩
  rw [visits_eq]
  exact List.mem_cons_self

/-- **A comment can be written**, even if all names and literals are as they are read. -/
theorem commented_of_compared :
    (¬ ∀ (dialect : Dialect) (tree : Node) (text : String), tree.Everywhere Writable →
        (ofDialect dialect).render tree = .ok text → commented dialect none text.toList = false) ∧
      ∀ dialect : Dialect, (ofDialect dialect).render compared = .ok "--a = b" := by
  refine ⟨fun h => ?_, render_compared⟩
  have hnone := h .mysql compared "--a = b" writable_compared (render_compared .mysql)
  exact absurd hnone (by decide)

end JetSql
