import Mathlib.Logic.Function.Iterate
import SourceMask.Proofs.Tree.Preorder

/-!
# Addresses of declarations

Two nodes of a tree can look the same, so a node is told by its *address*: the numbers of the
children on the way from the root to it.  An address that continues another one belongs to a node
below.  In the order of lists of numbers, addresses stand in document order.

The outermost declarations of a pass are the nodes of its kinds that have no node of its kinds above
them.  Each node of its kinds stands in exactly one of them, since of two addresses that continue to
a third one continues the other.

Main results:

- Theorem `exists_searchRounds`: the search ends after at most as many rounds as there are nodes.
- Theorem `mem_outermostAddresses`: which nodes are outermost declarations.
- Theorem `existsUnique_outermost_prefix`: each node of the pass stands in one of them.
- Theorem `exists_addresses_declarations`: what a search finds.
- Theorem `pairwise_outermost_of_isNested`: in nested ranges, the declarations found follow one
  another.
-/

namespace SourceMask

/-- The numbers of the children on the way from the root of a tree to a node. -/
abbrev Address := List Nat

namespace Node

/-- The node at an address, if there is one. -/
def at? (root : Node) : Address → Option Node
  | [] => some root
  | index :: rest => root.children[index]?.bind fun child => at? child rest

@[simp] theorem at?_nil (root : Node) : root.at? [] = some root := rfl

theorem at?_cons (root : Node) (index : Nat) (rest : Address) :
    root.at? (index :: rest) = root.children[index]?.bind fun child => child.at? rest := rfl

/-! ## Nested ranges -/

mutual

/-- Whether every node of a tree has its children inside of its range, one after the other and
without overlap. -/
def isNested : Node → Bool
  | mk label children =>
    children.all (fun child => label.start ≤ child.start && child.stop ≤ label.stop) &&
      decide (children.Pairwise fun first second => first.stop ≤ second.start) &&
      areNested children

/-- Whether the ranges of each of several trees are nested. -/
def areNested : List Node → Bool
  | [] => true
  | node :: rest => isNested node && areNested rest

end

theorem areNested_iff {nodes : List Node} :
    areNested nodes = true ↔ ∀ node ∈ nodes, node.isNested = true := by
  induction nodes with
  | nil => simp [areNested]
  | cons node rest ih => simp [areNested, ih]

theorem isNested_iff {node : Node} :
    node.isNested = true ↔
      (∀ child ∈ node.children, node.start ≤ child.start ∧ child.stop ≤ node.stop) ∧
        (node.children.Pairwise fun first second => first.stop ≤ second.start) ∧
        ∀ child ∈ node.children, child.isNested = true := by
  cases node with
  | mk label children =>
    simp only [isNested, areNested_iff, List.all_eq_true, Bool.and_eq_true, decide_eq_true_eq,
      and_assoc]
    rfl

/-- What holds of a node as soon as it holds of its children holds of every tree. -/
theorem induction_children {P : Node → Prop}
    (h : ∀ node : Node, (∀ child ∈ node.children, P child) → P node) (node : Node) : P node :=
  h node fun child _ => induction_children h child
termination_by sizeOf node
decreasing_by
  rename_i hmem
  cases node with
  | mk label children =>
    have hlt := List.sizeOf_lt_of_mem hmem
    rw [children_mk] at hlt
    rw [Node.mk.sizeOf_spec]
    omega

end Node

namespace Pass

variable {pass : Pass} {root : Node} {address : Address}

/-! ## Rounds of the search -/

/-- One round of the search: the first open node is taken.  It is found, if the pass masks its kind,
and otherwise its children are open instead. -/
def searchRound (pass : Pass) : List Node × List Node → List Node × List Node
  | (found, []) => (found, [])
  | (found, node :: others) =>
    if pass.isTarget node.kind then (found ++ [node], others) else (found, node.children ++ others)

/-- The search ends after at most as many rounds as there are nodes. -/
theorem exists_searchRounds (pass : Pass) (found stack : List Node) :
    ∃ rounds ≤ Node.sizeList stack,
      pass.searchRound^[rounds] (found, stack) = (found ++ pass.declarationsFrom stack, []) := by
  fun_induction declarationsFrom pass stack generalizing found with
  | case1 => exact ⟨0, Nat.le_refl 0, by rw [List.append_nil]; rfl⟩
  | case2 node others htarget ih =>
    rcases ih (found ++ [node]) with ⟨rounds, hle, hrounds⟩
    have hpos := Node.size_pos node
    refine ⟨rounds + 1, by rw [Node.sizeList_cons]; omega, ?_⟩
    rw [Function.iterate_succ_apply, searchRound, if_pos htarget, hrounds, List.append_assoc]
    rfl
  | case3 node others htarget ih =>
    rcases ih found with ⟨rounds, hle, hrounds⟩
    rw [Node.sizeList_append] at hle
    refine ⟨rounds + 1, by rw [Node.sizeList_cons, Node.size_eq]; omega, ?_⟩
    rw [Function.iterate_succ_apply, searchRound, if_neg htarget, hrounds]

/-! ## Addresses of outermost declarations -/

/-- Whether the node at an address is of a kind that the pass masks. -/
def IsTargetAt (pass : Pass) (root : Node) (address : Address) : Prop :=
  ∃ node, root.at? address = some node ∧ pass.isTarget node.kind = true

/-- Whether the node at an address is of a kind that the pass masks, and no node above it is. -/
def IsOutermostAt (pass : Pass) (root : Node) (address : Address) : Prop :=
  pass.IsTargetAt root address ∧
    ∀ above, above <+: address → above ≠ address → ¬pass.IsTargetAt root above

mutual

/-- The addresses of the outermost declarations of a tree, from left to right. -/
def outermostAddresses (pass : Pass) : Node → List Address
  | .mk label children =>
    if pass.isTarget label.kind then [[]] else outermostAddressesFrom pass 0 children

/-- The addresses of the outermost declarations of children with numbers from `index` on. -/
def outermostAddressesFrom (pass : Pass) (index : Nat) : List Node → List Address
  | [] => []
  | node :: rest =>
    (outermostAddresses pass node).map (index :: ·) ++ outermostAddressesFrom pass (index + 1) rest

end

theorem outermostAddresses_of_target (h : pass.isTarget root.kind = true) :
    pass.outermostAddresses root = [[]] := by
  cases root with
  | mk label children => exact if_pos h

theorem outermostAddresses_of_not_target (h : pass.isTarget root.kind = false) :
    pass.outermostAddresses root = pass.outermostAddressesFrom 0 root.children := by
  cases root with
  | mk label children => exact if_neg (by simpa [Node.kind] using h)

mutual

/-- The nodes at these addresses are the outermost declarations. -/
theorem map_at?_outermostAddresses (pass : Pass) :
    ∀ root : Node, (pass.outermostAddresses root).map root.at? = (pass.outermost root).map some
  | .mk label children => by
    cases htarget : pass.isTarget (Node.mk label children).kind with
    | true =>
      rw [outermostAddresses_of_target htarget, outermost_of_target htarget]
      rfl
    | false =>
      rw [outermostAddresses_of_not_target htarget, outermost_of_not_target htarget]
      exact map_at?_outermostAddressesFrom pass (.mk label children) [] children rfl

/-- The nodes at the addresses of the last children are the outermost declarations there. -/
theorem map_at?_outermostAddressesFrom (pass : Pass) (root : Node) (front : List Node) :
    ∀ nodes : List Node, root.children = front ++ nodes →
      (pass.outermostAddressesFrom front.length nodes).map root.at? =
        (pass.outermostList nodes).map some
  | [], _ => rfl
  | node :: rest, hchildren => by
    have hnode : root.children[front.length]? = some node := by
      rw [hchildren, List.getElem?_append_right (Nat.le_refl _), Nat.sub_self]
      rfl
    have hfirst : ((pass.outermostAddresses node).map (front.length :: ·)).map root.at? =
        (pass.outermost node).map some := by
      rw [List.map_map, ← map_at?_outermostAddresses pass node]
      refine List.map_congr_left fun address _ => ?_
      rw [Function.comp_apply, Node.at?_cons, hnode, Option.bind_some]
    have hrest := map_at?_outermostAddressesFrom pass root (front ++ [node]) rest
      (by rw [hchildren, List.append_assoc]; rfl)
    rw [List.length_append] at hrest
    rw [outermostAddressesFrom, List.map_append, hfirst, outermostList_cons, List.map_append]
    exact congrArg _ hrest

end

/-! ## Which addresses these are -/

theorem isTargetAt_nil : pass.IsTargetAt root [] ↔ pass.isTarget root.kind = true := by
  simp [IsTargetAt]

theorem isTargetAt_cons {index : Nat} {rest : Address} :
    pass.IsTargetAt root (index :: rest) ↔
      ∃ child, root.children[index]? = some child ∧ pass.IsTargetAt child rest := by
  simp only [IsTargetAt, Node.at?_cons, Option.bind_eq_some_iff]
  constructor
  · rintro ⟨node, ⟨child, hchild, hnode⟩, htarget⟩
    exact ⟨child, hchild, node, hnode, htarget⟩
  · rintro ⟨child, hchild, node, hnode, htarget⟩
    exact ⟨node, ⟨child, hchild, hnode⟩, htarget⟩

theorem isOutermostAt_nil : pass.IsOutermostAt root [] ↔ pass.isTarget root.kind = true := by
  rw [IsOutermostAt, isTargetAt_nil, and_iff_left_iff_imp]
  intro _ above habove hne
  exact absurd (List.prefix_nil.mp habove) hne

/-- Below a node that is no declaration, outermost declarations are those of its children. -/
theorem isOutermostAt_cons {index : Nat} {rest : Address} :
    pass.IsOutermostAt root (index :: rest) ↔
      pass.isTarget root.kind = false ∧
        ∃ child, root.children[index]? = some child ∧ pass.IsOutermostAt child rest := by
  constructor
  · rintro ⟨htarget, habove⟩
    rcases isTargetAt_cons.mp htarget with ⟨child, hchild, hrest⟩
    refine ⟨?_, child, hchild, hrest, ?_⟩
    · rw [← Bool.not_eq_true, ← isTargetAt_nil]
      exact habove [] List.nil_prefix (List.cons_ne_nil index rest).symm
    · intro above hprefix hne hother
      refine habove (index :: above) ((List.prefix_cons_inj index).mpr hprefix) ?_
        (isTargetAt_cons.mpr ⟨child, hchild, hother⟩)
      exact fun hsame => hne (List.cons.inj hsame).2
  · rintro ⟨hroot, child, hchild, htarget, habove⟩
    refine ⟨isTargetAt_cons.mpr ⟨child, hchild, htarget⟩, ?_⟩
    intro above hprefix hne hother
    rcases List.prefix_cons_iff.mp hprefix with rfl | ⟨above, rfl, hprefix⟩
    · rw [isTargetAt_nil, hroot] at hother
      cases hother
    · rcases isTargetAt_cons.mp hother with ⟨same, hsame, hother⟩
      rw [hchild] at hsame
      cases hsame
      exact habove above ((List.prefix_cons_inj index).mp hprefix) (fun heq => hne (by rw [heq]))
        hother

/-- The addresses that are listed for children with numbers from `index` on. -/
theorem mem_outermostAddressesFrom {index : Nat} {nodes : List Node} :
    address ∈ pass.outermostAddressesFrom index nodes ↔
      ∃ offset node rest, nodes[offset]? = some node ∧ rest ∈ pass.outermostAddresses node ∧
        address = (index + offset) :: rest := by
  induction nodes generalizing index with
  | nil => simp [outermostAddressesFrom]
  | cons first others ih =>
    rw [outermostAddressesFrom, List.mem_append, List.mem_map, ih]
    constructor
    · rintro (⟨rest, hrest, rfl⟩ | ⟨offset, node, rest, hnode, hrest, rfl⟩)
      · exact ⟨0, first, rest, rfl, hrest, rfl⟩
      · exact ⟨offset + 1, node, rest, hnode, hrest, by rw [Nat.add_right_comm, Nat.add_assoc]⟩
    · rintro ⟨offset, node, rest, hnode, hrest, rfl⟩
      cases offset with
      | zero =>
        cases hnode
        exact .inl ⟨rest, hrest, rfl⟩
      | succ offset =>
        exact .inr ⟨offset, node, rest, hnode, hrest, by rw [Nat.add_right_comm, Nat.add_assoc]⟩

/-- The listed addresses are those of the outermost declarations. -/
theorem mem_outermostAddresses :
    address ∈ pass.outermostAddresses root ↔ pass.IsOutermostAt root address := by
  induction address generalizing root with
  | nil =>
    rw [isOutermostAt_nil]
    cases htarget : pass.isTarget root.kind with
    | true => simp [outermostAddresses_of_target htarget]
    | false => simp [outermostAddresses_of_not_target htarget, mem_outermostAddressesFrom]
  | cons index rest ih =>
    rw [isOutermostAt_cons]
    cases htarget : pass.isTarget root.kind with
    | true => simp [outermostAddresses_of_target htarget]
    | false =>
      rw [outermostAddresses_of_not_target htarget, mem_outermostAddressesFrom]
      simp only [Nat.zero_add, List.cons.injEq, true_and]
      constructor
      · rintro ⟨_, child, _, hchild, hrest, rfl, rfl⟩
        exact ⟨child, hchild, ih.mp hrest⟩
      · rintro ⟨child, hchild, hrest⟩
        exact ⟨index, child, rest, hchild, ih.mpr hrest, rfl, rfl⟩

/-! ## Document order -/

mutual

/-- The addresses of the outermost declarations stand in document order. -/
theorem pairwise_outermostAddresses (pass : Pass) :
    ∀ root : Node, (pass.outermostAddresses root).Pairwise (· < ·)
  | .mk label children => by
    cases htarget : pass.isTarget (Node.mk label children).kind with
    | true =>
      rw [outermostAddresses_of_target htarget]
      exact List.pairwise_singleton _ _
    | false =>
      rw [outermostAddresses_of_not_target htarget]
      exact pairwise_outermostAddressesFrom pass 0 children

/-- The addresses below children stand in document order. -/
theorem pairwise_outermostAddressesFrom (pass : Pass) (index : Nat) :
    ∀ nodes : List Node, (pass.outermostAddressesFrom index nodes).Pairwise (· < ·)
  | [] => .nil
  | node :: rest => by
    have hnode := pairwise_outermostAddresses pass node
    have hrest := pairwise_outermostAddressesFrom pass (index + 1) rest
    rw [outermostAddressesFrom, List.pairwise_append]
    refine ⟨?_, hrest, ?_⟩
    · exact hnode.map _ fun first second hlt => List.cons_lt_cons_iff.mpr (.inr ⟨rfl, hlt⟩)
    · intro first hfirst second hsecond
      rcases List.mem_map.mp hfirst with ⟨below, -, rfl⟩
      rcases mem_outermostAddressesFrom.mp hsecond with ⟨offset, -, below', -, -, rfl⟩
      exact List.cons_lt_cons_iff.mpr (.inl (by omega))

end

/-! ## One outermost declaration above each node of the pass -/

/-- Of two outermost declarations none stands in the other. -/
theorem eq_of_prefix_of_isOutermostAt {first second : Address}
    (hfirst : pass.IsOutermostAt root first) (hsecond : pass.IsOutermostAt root second)
    (h : first <+: second) : first = second := by
  refine Classical.byContradiction fun hne => ?_
  exact hsecond.2 first h hne hfirst.1

/-- Each node of a kind that the pass masks stands in an outermost declaration. -/
theorem exists_outermost_prefix (h : pass.IsTargetAt root address) :
    ∃ outer, pass.IsOutermostAt root outer ∧ outer <+: address := by
  induction address generalizing root with
  | nil => exact ⟨[], isOutermostAt_nil.mpr (isTargetAt_nil.mp h), List.prefix_rfl⟩
  | cons index rest ih =>
    cases htarget : pass.isTarget root.kind with
    | true => exact ⟨[], isOutermostAt_nil.mpr htarget, List.nil_prefix⟩
    | false =>
      rcases isTargetAt_cons.mp h with ⟨child, hchild, hrest⟩
      rcases ih hrest with ⟨outer, houter, hprefix⟩
      exact ⟨index :: outer, isOutermostAt_cons.mpr ⟨htarget, child, hchild, houter⟩,
        (List.prefix_cons_inj index).mpr hprefix⟩

/-- Each node of a kind that the pass masks stands in exactly one outermost declaration. -/
theorem existsUnique_outermost_prefix (h : pass.IsTargetAt root address) :
    ∃! outer, pass.IsOutermostAt root outer ∧ outer <+: address := by
  rcases exists_outermost_prefix h with ⟨outer, houter, hprefix⟩
  refine ⟨outer, ⟨houter, hprefix⟩, ?_⟩
  rintro other ⟨hother, hotherPrefix⟩
  rcases List.prefix_or_prefix_of_prefix hotherPrefix hprefix with hle | hle
  · exact eq_of_prefix_of_isOutermostAt hother houter hle
  · exact (eq_of_prefix_of_isOutermostAt houter hother hle).symm

/-! ## Ranges of declarations -/

theorem outermostList_eq_flatMap (pass : Pass) (nodes : List Node) :
    pass.outermostList nodes = nodes.flatMap pass.outermost := by
  induction nodes with
  | nil => rfl
  | cons node rest ih => rw [outermostList_cons, List.flatMap_cons, ih]

/-- In nested ranges, the outermost declarations of a tree lie in the range of its root. -/
theorem inside_of_mem_outermost {node : Node} (h : root.isNested = true)
    (hmem : node ∈ pass.outermost root) : root.start ≤ node.start ∧ node.stop ≤ root.stop := by
  induction root using Node.induction_children with
  | h root ih =>
    rcases Node.isNested_iff.mp h with ⟨hinside, -, hbelow⟩
    cases htarget : pass.isTarget root.kind with
    | true =>
      rw [outermost_of_target htarget, List.mem_singleton] at hmem
      rw [hmem]
      exact ⟨Nat.le_refl _, Nat.le_refl _⟩
    | false =>
      rw [outermost_of_not_target htarget, outermostList_eq_flatMap, List.mem_flatMap] at hmem
      rcases hmem with ⟨child, hchild, hmem⟩
      have hself := hinside child hchild
      have hnode := ih child hchild (hbelow child hchild) hmem
      omega

/-- In nested ranges, the outermost declarations of a tree follow one another. -/
theorem pairwise_outermost_of_isNested (pass : Pass) (h : root.isNested = true) :
    (pass.outermost root).Pairwise fun first second => first.stop ≤ second.start := by
  induction root using Node.induction_children with
  | h root ih =>
    rcases Node.isNested_iff.mp h with ⟨-, hinOrder, hbelow⟩
    cases htarget : pass.isTarget root.kind with
    | true =>
      rw [outermost_of_target htarget]
      exact List.pairwise_singleton _ _
    | false =>
      rw [outermost_of_not_target htarget, outermostList_eq_flatMap, List.pairwise_flatMap]
      refine ⟨fun child hchild => ih child hchild (hbelow child hchild), ?_⟩
      refine hinOrder.imp_of_mem ?_
      intro first second hfirst hsecond hle node hnode other hother
      have hnode := inside_of_mem_outermost (hbelow first hfirst) hnode
      have hother := inside_of_mem_outermost (hbelow second hsecond) hother
      omega

/-! ## What a search finds -/

/-- The search for declarations ends.  It finds the nodes of the kinds of the pass that have no such
node above them, each of them once and in document order, and each node of these kinds stands in
exactly one of them.  If the ranges of the tree are nested, then the declarations found lie one
after the other and without overlap. -/
theorem exists_addresses_declarations (pass : Pass) (root : Node) :
    (∃ rounds ≤ root.preorder.length,
        pass.searchRound^[rounds] ([], [root]) = (pass.declarations root, [])) ∧
      (pass.declarations root).Sublist root.preorder ∧
      (∃ addresses : List Address,
        addresses.map root.at? = (pass.declarations root).map some ∧
          addresses.Pairwise (· < ·) ∧
          (∀ address, address ∈ addresses ↔ pass.IsOutermostAt root address) ∧
          ∀ address, pass.IsTargetAt root address →
            ∃! outer, outer ∈ addresses ∧ outer <+: address) ∧
      (root.isNested = true →
        (pass.declarations root).Pairwise fun first second => first.stop ≤ second.start) := by
  refine ⟨?_, ?_, ⟨pass.outermostAddresses root, ?_, pairwise_outermostAddresses pass root,
    fun _ => mem_outermostAddresses, ?_⟩, ?_⟩
  · rcases exists_searchRounds pass [] [root] with ⟨rounds, hle, hrounds⟩
    rw [Node.sizeList_cons, Node.sizeList_nil, Nat.add_zero, ← Node.length_preorder] at hle
    exact ⟨rounds, hle, hrounds⟩
  · rw [declarations_eq_outermost]
    exact outermost_sublist_preorder pass root
  · rw [declarations_eq_outermost]
    exact map_at?_outermostAddresses pass root
  · intro address htarget
    simp only [mem_outermostAddresses]
    exact existsUnique_outermost_prefix htarget
  · rw [declarations_eq_outermost]
    exact pairwise_outermost_of_isNested pass

/-- Two functions, the first of them with another one in its body. -/
def functionInFunction : Node :=
  .mk ⟨"program", none, 0, 48, false, false, false⟩
    [.mk ⟨"function_declaration", none, 0, 32, false, false, false⟩
      [.mk ⟨"identifier", some "name", 9, 10, false, false, false⟩ [],
        .mk ⟨"statement_block", some "body", 13, 32, false, false, false⟩
          [.mk ⟨"function_declaration", none, 15, 30, false, false, false⟩ []]],
      .mk ⟨"function_declaration", none, 33, 48, false, false, false⟩ []]

/-- The inner function is not found: it stands in the outer one. -/
theorem exists_addresses_declarations_functionInFunction :
    functionInFunction.isNested = true ∧
      functionScope.IsTargetAt functionInFunction [0, 1, 0] ∧
      (functionScope.declarations functionInFunction).map Node.start = [0, 33] ∧
      (∃ addresses : List Address,
        addresses.map functionInFunction.at? =
            (functionScope.declarations functionInFunction).map some ∧
          ∃! outer, outer ∈ addresses ∧ outer <+: [0, 1, 0]) ∧
      (functionScope.declarations functionInFunction).Pairwise fun first second =>
        first.stop ≤ second.start := by
  have hnested : functionInFunction.isNested = true := by decide
  have htarget : functionScope.IsTargetAt functionInFunction [0, 1, 0] := ⟨_, rfl, by decide⟩
  rcases exists_addresses_declarations functionScope functionInFunction with
    ⟨-, -, ⟨addresses, hnodes, -, -, hunique⟩, hfollow⟩
  exact ⟨hnested, htarget, by decide +kernel, ⟨addresses, hnodes, hunique _ htarget⟩,
    hfollow hnested⟩

end Pass

end SourceMask
