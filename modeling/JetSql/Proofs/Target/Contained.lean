/-
Every quoted text of a rendered tree stays between its quotes.

The templates of the dialects put marks between the texts of the nodes below, so that no quote meets
another and no two signs begin a comment: a lexer finds in the text of a node what it finds in those
of the nodes below it. The one sign that stands right before a text is a minus sign. An operand
that it may stand before has no minus sign in front, or it is put in parentheses.

* **`Composed.finds`:** a lexer finds in a text that is composed the quotations it is composed of, if
  no minus signs meet in it.
* **`finds_renderAt`:** so it finds in the text of a formed tree the quotations of the tree.
* **`scan_convert`:** in the text that a statement is converted to, it finds those of the statement,
  with all quotes and parentheses closed and without a comment.
-/

import JetSql.Convert
import JetSql.Proofs.Grammar.Shape
import JetSql.Proofs.ReadBack.Nesting
import JetSql.Proofs.Target.Rendered

namespace JetSql

/-- Names and literals that can be written are told from what surrounds them. -/
theorem Node.Writable.spelled {node : Node} (h : node.Writable) : node.Spelled := by
  cases node with
  | selectItem _ asName => exact fun part hpart => (h part hpart).spelled
  | tableRef _ asName => exact fun part hpart => (h part hpart).1.spelled
  | call => exact h.1
  | identifier | qualifiedStar => exact ⟨h.1, fun part hpart => (h.2 part hpart).spelled⟩
  | literal => exact h
  | _ => trivial

namespace Target

open Grammar Node Renderer Text

variable {dialect : Dialect} {renderer : Renderer} {node : Node} {text : String}
  {found : List Quotation} {meets : Bool}

/-! ### Composed texts -/

/-- A minus sign that no other one follows does not begin a comment. -/
theorem Finds.minus {text : List Char} (h : Finds dialect text found) (hunsigned : Unsigned text) :
    Finds dialect ('-' :: text) found := by
  intro level rest hrest
  have hcomment : opensComment '-' (text ++ rest) = false := by
    obtain ⟨c, text, rfl⟩ : ∃ c s, text = c :: s :=
      List.exists_cons_of_ne_nil (by rintro rfl; cases hunsigned)
    have hc : c ≠ '-' := by simpa [Unsigned] using hunsigned
    simp [opensComment, hc]
  rw [List.cons_append, scan_cons (by decide) hcomment, h level rest hrest]

theorem Parting.mark {mark : List Char} (h : Parting mark) : Mark dialect mark := by
  obtain h | ⟨c, hc, rfl⟩ := h
  · exact mark_of_isMark h
  · exact ⟨parts_sign hc, rfl⟩

/-- **A lexer finds in a text what it is composed of**, if no minus signs meet in it. -/
theorem Composed.finds {chars : List Char} (h : Composed dialect chars found meets)
    (hmeets : meets = false) : Finds dialect chars found := by
  induction h with
  | plain h => exact (parts_of_all h).finds
  | quoted hopens h => exact finds_quoted (isQuote_of_opensQuote hopens) hopens h
  | parens _ ih => exact (ih hmeets).parens.finds
  | minus _ hbegins ih =>
    obtain ⟨rfl, hmeets⟩ := Bool.or_eq_false_iff.mp hmeets
    exact (ih hmeets).minus (unsigned_of_begins hbegins)
  | between _ hmark _ ihfirst ihsecond =>
    obtain ⟨hfirst, hsecond⟩ := Bool.or_eq_false_iff.mp hmeets
    exact (ihfirst hfirst).between hmark.mark (ihsecond hsecond)

/-! ### Trees -/

/-- A lexer finds in the text of a node the quotations of the node. -/
def Quotes (renderer : Renderer) (visit : Node → Except Error String) (node : Node) : Prop :=
  ∀ text, visit node = .ok text →
    Finds renderer.dialect text.toList (node.quotations renderer.dialect)

/-- **A lexer finds in the text of a formed tree the quotations of the tree.** -/
theorem finds_renderAt {role : Role} (hcalls : CallsWords renderer) (hformed : Formed role node)
    (levels : Nat) : Quotes renderer (renderer.renderAt levels) node := by
  have hspelled : node.Everywhere Spelled :=
    hformed.everywhere (fun hformed => hformed.writable.spelled) fun _ => trivial
  intro text h
  exact (composed_renderAt hcalls hspelled levels text h).finds
    (signsMeet_of_formed renderer.dialect hformed)

/-- The whole text of a tree, where nothing is left open. -/
theorem scan_of_render {role : Role} (hcalls : CallsWords renderer) (hformed : Formed role node)
    (h : renderer.render node = .ok text) :
    scan renderer.dialect 0 text.toList = some (node.quotations renderer.dialect) := by
  have hfinds := finds_renderAt hcalls hformed renderer.maxDepth text h 0 [] rfl
  rw [List.append_nil, scan, if_pos rfl, Option.map_some, List.append_nil] at hfinds
  exact hfinds

/-! ### Conversions -/

theorem dialect_ofConfig (config : Config) : (ofConfig config).dialect = config.dialect := by
  refine List.foldlRecOn config.functions.entries _
    (motive := fun renderer : Renderer => renderer.dialect = config.dialect) rfl ?_
  intro renderer hdialect entry _
  exact hdialect

/-- The renames of a dialect are to words, and those of the configuration come after them. -/
theorem callsWords_ofConfig {config : Config}
    (h : ∀ entry ∈ config.functions.entries, entry.2.toList.all isTokenChar = true) :
    CallsWords (ofConfig config) := by
  refine List.foldlRecOn config.functions.entries _ (motive := CallsWords) ?_ ?_
  · intro entry hentry
    exact (callsNames_ofDialect config.dialect entry hentry).2
  · intro renderer hcalls entry hentry
    exact callsWords_rename hcalls entry.1 (h entry hentry)

end Target

open Grammar Node Target

/-- **A lexer of the target runs through a converted statement**: every quoted text ends, nothing
outside of quotes begins a comment, the parentheses outside of quotes close each other, and the
quoted texts are the strings, dates, patterns and bracketed names of the statement, each of them
whole. This holds if every function is renamed to a word. -/
theorem scan_convert {config : Config} {source text : String}
    (htargets : ∀ entry ∈ config.functions.entries, entry.2.toList.all Text.isWordChar = true)
    (h : convert config source = .ok text) :
    ∃ tree, parse source config.maxDepth = .ok tree ∧
      scan config.dialect 0 text.toList = some (tree.quotations config.dialect) := by
  obtain ⟨tree, hparse, hrender⟩ := Renderer.bind_eq_ok.mp h
  have hformed := formed_of_read (read_of_parse hparse)
  have hcalls : CallsWords (Renderer.ofConfig config) := by
    refine callsWords_ofConfig fun entry hentry => List.all_eq_true.mpr fun c hc => ?_
    rw [isTokenChar, List.all_eq_true.mp (htargets entry hentry) c hc, Bool.true_or]
  have hscan := scan_of_render hcalls hformed hrender
  rw [dialect_ofConfig] at hscan
  exact ⟨tree, hparse, hscan⟩

/-- A string that would close its quotes, and open a comment and a parenthesis, if it could. -/
def hostile : Node :=
  literal (.string "'--(" '"')

/-- The string stays between the quotes that it gets. -/
theorem scan_convert_hostile :
    (∀ entry ∈ (Dictionary.mk [("F", "G")]).entries, entry.2.toList.all Text.isWordChar = true) ∧
      convert ⟨.postgres, 4, ⟨[("F", "G")]⟩⟩ "SELECT \"'--(\"" = .ok "SELECT '''--('" ∧
      scan .postgres 0 "SELECT '''--('".toList = some [⟨'\'', "'--(".toList⟩] := by
  have hformed : Formed .expr hostile := .literal ⟨.inr rfl, by decide⟩
  have hparse : parse "SELECT \"'--(\"" 4 = .ok (selecting hostile) :=
    parse_of_selecting hformed (levels_leaf rfl rfl rfl) rfl
  have htargets : ∀ entry ∈ (Dictionary.mk [("F", "G")]).entries,
      entry.2.toList.all Text.isWordChar = true := List.forall_mem_singleton.mpr (by decide)
  have hconvert : convert ⟨.postgres, 4, ⟨[("F", "G")]⟩⟩ "SELECT \"'--(\"" =
      .ok "SELECT '''--('" := by
    rw [convert, hparse]
    rfl
  obtain ⟨tree, htree, hscan⟩ := scan_convert htargets hconvert
  obtain rfl := Except.ok.inj (hparse.symm.trans htree)
  have hitem :
      (Node.selectItem hostile none).quotations .postgres = hostile.quotations .postgres := by
    rw [quotations_of_children rfl rfl rfl]
    simp [children]
  have hselecting : (selecting hostile).quotations .postgres = hostile.quotations .postgres := by
    rw [selecting, quotations_of_children rfl rfl rfl]
    simp [children, Clauses.nodes, hitem]
  refine ⟨htargets, hconvert, hscan.trans (congrArg some (hselecting.trans ?_))⟩
  rw [hostile, quotations_eq _ rfl]
  rfl

end JetSql
