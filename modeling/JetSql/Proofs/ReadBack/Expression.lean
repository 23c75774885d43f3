/-
Written expressions are read back.

After the text of an operand the reader stands where it would stand if the node had just been
completed: it goes on with the links that follow, with one level less for every link of the node.
That is what the induction carries, since the text of a chain begins with the text of its left
operand.

* **`operand_source`:** this holds of every formed expression that fits the budget.
-/

import JetSql.Proofs.Grammar.Form
import JetSql.Proofs.ReadBack.Operand
import JetSql.Proofs.Tree.Weight

namespace JetSql.Grammar

open Reader Node

variable {limit b least : Nat} {s rest start stop : List Char} {node left : Node}

/-! ### Chains -/

theorem operand_of_leading (h : leading limit (belowAt limit b) s = .ok node rest) :
    operand limit b least s = chain limit b least node rest := by
  rw [operand_eq, operandOf, bind_apply, h, chain_eq]

theorem chain_of_stops (hs : Unbroken s) (h : Stops least s) :
    chain limit b least left s = .ok left s := by
  rw [chain_eq, climb]
  cases hread : Link.read s with
  | ok found start =>
    cases found with
    | none => rfl
    | some link => simp [h link start (by rw [Link.read?, hread]; rfl)]
  | miss rest expected => rfl
  | halt error => exact absurd hread (hs error)

theorem chain_of_link {link : Link} (hread : Link.read? s = some (link, start))
    (hleast : least ≤ link.precedence)
    (hcomplete : link.complete ⟨operand limit b, chain limit b⟩ left start = .ok node stop) :
    chain limit (b + 1) least left s = chain limit b least node stop := by
  rw [chain_eq, climb, found?_eq_some.mp hread]
  simp only [Nat.not_lt.mpr hleast, if_false]
  change (link.complete ⟨operand limit b, chain limit b⟩ left >>= _) start = _
  rw [bind_apply, hcomplete]

/-- Where an expression ends, no link goes on. -/
theorem Closes.stops (h : Closes closers s) (rank : Nat) : Stops rank s := by
  intro link after hread
  rw [Link.read?, h.read_eq] at hread
  cases hread

/-- A test for null is read back. -/
theorem read?_isNull (negated : Bool) (h : Apart rest) :
    Link.read? ((Link.isNull negated).source ++ rest) = some (.isNull negated, rest) := by
  rcases h.cases with rfl | ⟨c, rest, rfl, rfl | rfl | rfl⟩ <;> cases negated <;> rfl

/-- The text of an expression is read as the expression, and the reader goes on behind it. -/
def ReadsBack (limit : Nat) (node : Node) : Prop :=
  ∀ b least rest, node.levels ≤ b → least ≤ node.spine → Apart rest → Stops node.tail rest →
    operand limit b least (node.source ++ rest) = chain limit (b - node.links) least node rest

theorem ReadsBack.operand_eq_ok (h : ReadsBack limit node) (hlevels : node.levels ≤ b)
    (hspine : least ≤ node.spine) (hrest : Apart rest) (htail : Stops node.tail rest)
    (hleast : Stops least rest) : operand limit b least (node.source ++ rest) = .ok node rest := by
  rw [h b least rest hlevels hspine hrest htail, chain_of_stops hrest.unbroken hleast]

/-- A chain is read back if its left operand is and its last link is completed. -/
theorem ReadsBack.link (link : Link) (hleft : ReadsBack limit left) (hlevels : left.levels ≤ b)
    (hlinks : left.links + 1 ≤ b) (hleast : least ≤ min link.precedence left.spine)
    (htail : link.precedence < left.tail) (hs : Apart s)
    (hread : Link.read? s = some (link, start))
    (hcomplete : link.complete ⟨operand limit (b - (left.links + 1)),
      chain limit (b - (left.links + 1))⟩ left start = .ok node rest) :
    operand limit b least (left.source ++ s) = chain limit (b - (left.links + 1)) least node rest := by
  have hstops : Stops left.tail s := by
    intro link' after hread'
    cases hread.symm.trans hread'
    exact htail
  rw [hleft b least s hlevels (Nat.le_trans hleast (Nat.min_le_right ..)) hs hstops,
    show b - left.links = b - (left.links + 1) + 1 by omega]
  exact chain_of_link hread (Nat.le_trans hleast (Nat.min_le_left ..)) hcomplete

/-- The operand after a link is read back. -/
theorem ReadsBack.right (rank : Nat) (h : ReadsBack limit node) (hlevels : node.levels ≤ b)
    (hspine : rank < node.spine) (hrest : Apart rest) (hstops : Stops (min (rank + 1) node.tail) rest) :
    operand limit b (rank + 1) (' ' :: (node.source ++ rest)) = .ok node rest := by
  obtain ⟨hrank, htail⟩ := stops_min.mp hstops
  rw [operand_blank, h.operand_eq_ok hlevels hspine hrest htail hrank]

/-- What the role of a node in an expression says of its text. -/
def Role.ReadsBack (limit : Nat) : Role → Node → Prop
  | .expr, node => Grammar.ReadsBack limit node
  | .argument, node => ∀ b rest, node.levels ≤ b → Closes closers rest →
    Grammar.argument ⟨operand limit b, chain limit b⟩ (node.source ++ rest) = .ok node rest
  | _, _ => True

/-- What a node needs below its operator. -/
theorem levels_le_of_mem_inside {child : Node} (hlevels : node.levels ≤ b)
    (h : child ∈ node.inside) : child.levels ≤ b - node.spends := by
  have := (levels_le_iff.mp hlevels).2.2 child h
  omega

theorem levels_le_of_mem_before {child : Node} (hlevels : node.levels ≤ b)
    (h : child ∈ node.before) : child.levels ≤ b :=
  (levels_le_iff.mp hlevels).2.1 child h

theorem spends_le (hlevels : node.levels ≤ b) : node.spends ≤ b :=
  (levels_le_iff.mp hlevels).1

/-- A node that leads one level down leaves one level less for what it holds. -/
theorem exists_of_spends (hspends : node.spends = 1) (hlevels : node.levels ≤ b) :
    ∃ b', b = b' + 1 ∧ ∀ child ∈ node.inside, child.levels ≤ b' := by
  have hown := spends_le hlevels
  refine ⟨b - 1, by omega, fun child hchild => ?_⟩
  have := levels_le_of_mem_inside hlevels hchild
  omega

theorem loosest_le_spine (node : Node) : loosest ≤ node.spine := by
  fun_induction Node.spine node with
  | case1 left op _ ih => cases op <;> simp only [LogicOp.precedence, loosest] at ih ⊢ <;> omega
  | case6 left op _ ih => cases op <;> simp only [ArithOp.precedence, loosest] at ih ⊢ <;> omega
  | case7 => decide
  | _ => rename_i ih; simp only [loosest] at ih ⊢; omega

theorem ReadsBack.operand_of_closes (h : ReadsBack limit node) (hlevels : node.levels ≤ b)
    (hrest : Closes closers rest) : operand limit b loosest (node.source ++ rest) = .ok node rest :=
  h.operand_eq_ok hlevels (loosest_le_spine node) hrest.apart (hrest.stops _) (hrest.stops _)

/-- **Every formed expression is read back from its text.** -/
theorem operand_source (limit : Nat) {role : Role} (h : Formed role node) :
    role.ReadsBack limit node := by
  induction h with
  | @logical left right op _ htail _ hspine ihleft ihright =>
    intro b least rest hlevels hleast hrest hstops
    have hright := ihright.right _
      (levels_le_of_mem_inside hlevels (by simp [inside])) hspine hrest hstops
    rw [source_logical, List.append_assoc, List.append_assoc]
    exact ihleft.link (.logical op) (levels_le_of_mem_before hlevels (by simp [before]))
      (spends_le hlevels) hleast htail (apart_link _ (by simp)) (Link.read?_source _ _)
      (bind_eq_ok.mpr ⟨right, rest, hright, rfl⟩)
  | @arithmetic left right op _ htail _ hspine ihleft ihright =>
    intro b least rest hlevels hleast hrest hstops
    have hright := ihright.right _
      (levels_le_of_mem_inside hlevels (by simp [inside])) hspine hrest hstops
    rw [source_arithmetic, List.append_assoc, List.append_assoc]
    exact ihleft.link (.arithmetic op) (levels_le_of_mem_before hlevels (by simp [before]))
      (spends_le hlevels) hleast htail (apart_link _ (by simp)) (Link.read?_source _ _)
      (bind_eq_ok.mpr ⟨right, rest, hright, rfl⟩)
  | @compare left right op _ htail _ hspine ihleft ihright =>
    intro b least rest hlevels hleast hrest hstops
    have hright := ihright.right _
      (levels_le_of_mem_inside hlevels (by simp [Node.compare, inside])) hspine hrest hstops
    rw [source_compare, List.append_assoc, List.append_assoc]
    exact ihleft.link (.compare op) (levels_le_of_mem_before hlevels (by simp [Node.compare, before]))
      (spends_le hlevels) hleast htail (apart_link (.compare op) (by simp))
      (Link.read?_source (.compare op) _)
      (bind_eq_ok.mpr ⟨right, rest, expecting_eq_ok.mpr hright, rfl⟩)
  | @isNull left negated _ htail ihleft =>
    intro b least rest hlevels hleast hrest _
    rw [source_isNull, List.append_assoc]
    exact ihleft.link (.isNull negated)
      (levels_le_of_mem_before hlevels (by simp [before])) (spends_le hlevels) hleast htail
      (apart_link _ (hrest.head?_ne (by decide))) (read?_isNull negated hrest) rfl
  | @inList left list negated _ htail hne _ ihleft ihlist =>
    intro b least rest hlevels hleast hrest _
    have hclose : skipSpacing (')' :: rest) = ')' :: rest :=
      skipSpacing_cons (by decide) (by decide) rest
    have hlist := separated1_commas (closes_comma closers)
      (operand_blank limit (b - (left.links + 1)) loosest)
      (fun item hitem rest hrest => (ihlist item hitem).operand_of_closes
        (levels_le_of_mem_inside hlevels hitem) hrest) hne (closes_paren closers rest)
      (symbol_misses_of_head? (c := ',') rfl (by rw [hclose]; simp))
    simp only [source_inList, List.append_assoc, List.cons_append, List.nil_append]
    refine ihleft.link (.inList negated)
      (levels_le_of_mem_before hlevels (by simp [before])) (spends_le hlevels) hleast htail
      (apart_link _ (by simp)) (Link.read?_source _ _) ?_
    refine bind_eq_ok.mpr ⟨(), commas (list.map source) ++ ')' :: rest, ?_,
      bind_eq_ok.mpr ⟨list, ')' :: rest, hlist, bind_eq_ok.mpr ⟨(), rest, ?_, rfl⟩⟩⟩
    · exact expecting_eq_ok.mpr (symbol_eq_ok.mpr rfl)
    · exact expecting_eq_ok.mpr (symbol_eq_ok.mpr hclose)
  | @between left low high negated _ htail _ hlowspine hlowtail _ hhighspine ihleft ihlow ihhigh =>
    intro b least rest hlevels hleast hrest hstops
    have hhigh := ihhigh.right 4 (levels_le_of_mem_inside hlevels (by simp [inside]))
      hhighspine hrest hstops
    have hand : Link.read? (" AND ".toList ++ (high.source ++ rest)) =
        some (.logical .and, ' ' :: (high.source ++ rest)) := Link.read?_source (.logical .and) _
    have hblank : (' ' :: (high.source ++ rest)).head? ≠ some '-' := by simp
    have hapart : Apart (" AND ".toList ++ (high.source ++ rest)) :=
      apart_link (.logical .and) hblank
    have hlow := ihlow.right 4 (levels_le_of_mem_inside hlevels (by simp [inside])) hlowspine hapart
      (by
        intro link after hread
        cases hand.symm.trans hread
        exact Nat.lt_min.mpr ⟨by decide, hlowtail⟩)
    simp only [source_between, List.append_assoc, List.cons_append]
    refine ihleft.link (.between negated)
      (levels_le_of_mem_before hlevels (by simp [before])) (spends_le hlevels) hleast htail
      (apart_link _ (by simp)) (Link.read?_source _ _) ?_
    refine bind_eq_ok.mpr ⟨low, " AND ".toList ++ (high.source ++ rest), hlow,
      bind_eq_ok.mpr ⟨(), ' ' :: (high.source ++ rest), ?_,
        bind_eq_ok.mpr ⟨high, rest, hhigh, rfl⟩⟩⟩
    exact expecting_eq_ok.mpr ((keyword_blank ..).trans (keyword_source _ (by decide) rfl))
  | @not expr _ hspine ih =>
    intro b least rest hlevels _ hrest hstops
    obtain ⟨hfour, htail⟩ := stops_min.mp hstops
    obtain ⟨b, rfl, hinside⟩ := exists_of_spends rfl hlevels
    rw [source_not, List.append_assoc]
    exact operand_of_leading (leading_not
      (ih.operand_eq_ok (hinside expr (by simp [inside, children])) hspine hrest htail hfour))
  | @negate expr hexpr hspine ih =>
    intro b least rest hlevels _ hrest hstops
    obtain ⟨b, rfl, hinside⟩ := exists_of_spends rfl hlevels
    have hread := ih.operand_eq_ok (hinside expr (by simp [inside, children])) hspine hrest hstops
      (stops_ten rest)
    rw [source_negate, List.append_assoc]
    rcases signSource_eq expr with hsign | ⟨hsign, hne⟩
    · rw [hsign]
      exact operand_of_leading
        (leading_negate (skipSpacing_minus (by simp)) ((operand_blank ..).trans hread))
    · rw [hsign]
      exact operand_of_leading
        (leading_negate (skipSpacing_minus (head?_source_ne_minus hexpr hspine hne rest)) hread)
  | @grouped expr _ ih =>
    intro b least rest hlevels _ hrest _
    obtain ⟨b, rfl, hinside⟩ := exists_of_spends rfl hlevels
    have hread := ih.operand_of_closes (hinside expr (by simp [inside, children]))
      (closes_paren closers rest)
    rw [source_grouped, List.cons_append, List.append_assoc]
    exact operand_of_leading (leading_grouped hread)
  | conditional _ _ _ ihcondition ihthen ihelse =>
    intro b least rest hlevels _ hrest _
    obtain ⟨b, rfl, hinside⟩ := exists_of_spends rfl hlevels
    rw [source_conditional, List.append_assoc, List.append_assoc]
    refine operand_of_leading (leading_conditional (arguments_source fun arg harg rest => ?_))
    have harglevels := hinside arg harg
    simp only [List.mem_cons, List.not_mem_nil, or_false] at harg
    rcases harg with rfl | rfl | rfl
    · exact ihcondition b rest harglevels
    · exact ihthen b rest harglevels
    · exact ihelse b rest harglevels
  | call hcallee _ ih =>
    intro b least rest hlevels _ hrest _
    obtain ⟨b, rfl, hinside⟩ := exists_of_spends rfl hlevels
    rw [source_call, List.append_assoc, List.cons_append, List.append_assoc]
    exact operand_of_leading (leading_call hcallee
      (arguments_source fun arg harg rest => ih arg harg b rest (hinside arg harg)))
  | literal hvalue =>
    intro b least rest _ _ hrest _
    exact operand_of_leading (leading_literal hvalue hrest)
  | identifier hne hnames =>
    intro b least rest _ _ hrest _
    exact operand_of_leading (leading_identifier hne hnames hrest)
  | star =>
    intro b rest _ _
    exact orElse_eq_ok.mpr (.inl (seqRight_eq_ok.mpr ⟨(), rest, symbol_eq_ok.mpr rfl, rfl⟩))
  | argument hexpr ih =>
    intro b rest hlevels hrest
    exact orElse_eq_ok.mpr (.inr
      ⟨seqRight_misses.mpr (.inl (opens_source hexpr hrest.apart).symbol_misses),
        ih.operand_of_closes hlevels hrest⟩)
  | _ => trivial

end JetSql.Grammar
