import SourceMask.Proofs.Names.Register
import SourceMask.Proofs.Text.Cut
import SourceMask.Proofs.Tree.Preorder

/-!
# The order in which names are discovered

The names of a declaration are recorded by a loop over open nodes.  Each round takes one node, looks
through its children from left to right, and puts them in its place.  So the nodes are taken in
document order, and the loop ends when all have been taken.

A name, however, is recorded when the parent of its node is taken.  The names that the children of a
node introduce are therefore discovered together, before anything that stands inside of one of these
children, even inside of an earlier one.  The numbers of the names follow this order.

Main results:

- Theorem `recordRounds_sizeList`: after as many rounds as there are nodes, no node is open.
- Theorem `recordBelow_eq_recordAll`: the loop records the names node by node in document order.
- Theorems `exists_readAll?_of_recordAll` and `recordAll_eq_error_iff`: all places are read and
  their names inserted, or the first place that covers no part of the text is reported.
- Theorem `isDiscoveryOf_declaredNames`: what is told about the names of a declaration.
-/

namespace SourceMask

namespace Pass

variable {pass : Pass} {source : Text}

/-! ## Places of names -/

/-- The children of a node that introduce names, from left to right, with the roles of the names. -/
def introducedBy (pass : Pass) (parent : Node) : List (Role × Node) :=
  parent.children.filterMap fun child =>
    (pass.classify child.kind parent.kind child.field).map fun role => (role, child)

/-- The nodes below a node that introduce names: the children of each node of the tree, taken in
document order. -/
def introducedBelow (pass : Pass) (root : Node) : List (Role × Node) :=
  root.preorder.flatMap pass.introducedBy

/-- The children of a root that introduce names are listed before everything below its children. -/
theorem introducedBelow_eq (pass : Pass) (root : Node) :
    pass.introducedBelow root =
      pass.introducedBy root ++ (Node.preorderList root.children).flatMap pass.introducedBy := by
  rw [introducedBelow, Node.preorder_eq, List.flatMap_cons]

/-- What is introduced below a node of a tree stands together. -/
theorem introducedBelow_infix_of_mem {node : Node} {nodes : List Node}
    (h : node ∈ Node.preorderList nodes) :
    pass.introducedBelow node <:+: (Node.preorderList nodes).flatMap pass.introducedBy :=
  (Node.preorder_infix_of_mem_list h).flatMap _

/-! ## Recording in a given order -/

/-- Record the texts of nodes in their roles, one after the other. -/
def recordAll (source : Text) (table : NameTable) (places : List (Role × Node)) :
    Except Edit.Fault NameTable :=
  places.foldlM (fun table place => (textOf source place.2).map fun name =>
    (table.insert place.1 name).2) table

/-- Recording the names of children records the texts of those that introduce names. -/
theorem recordChildren_eq_recordAll (pass : Pass) (source : Text) (table : NameTable)
    (parent : Node) :
    pass.recordChildren source table parent =
      recordAll source table (pass.introducedBy parent) := by
  rw [recordChildren, recordAll, introducedBy, List.foldlM_filterMap]
  congr 1
  funext table child
  rw [recordName]
  cases pass.classify child.kind parent.kind child.field <;> rfl

theorem recordAll_append (table : NameTable) (first second : List (Role × Node)) :
    recordAll source table (first ++ second) =
      recordAll source table first >>= fun names => recordAll source names second :=
  List.foldlM_append

/-- The loop over open nodes records the names node by node in document order. -/
theorem recordBelow_eq_recordAll (pass : Pass) (source : Text) (table : NameTable)
    (stack : List Node) :
    pass.recordBelow source table stack =
      recordAll source table ((Node.preorderList stack).flatMap pass.introducedBy) := by
  fun_induction recordBelow pass source table stack with
  | case1 table => rfl
  | case2 table node others fault hfault =>
    rw [recordChildren_eq_recordAll] at hfault
    rw [Node.preorderList_cons, Node.preorder_eq, List.cons_append, List.flatMap_cons,
      recordAll_append, hfault]
    rfl
  | case3 table node others names hnames ih =>
    rw [recordChildren_eq_recordAll] at hnames
    rw [ih, Node.preorderList_cons, Node.preorder_eq, List.cons_append, List.flatMap_cons,
      recordAll_append, hnames, Node.preorderList_append]
    rfl

/-! ## Rounds of the loop -/

/-- One round of the loop: the first open node is taken, the names of its children are recorded, and
the children are open instead. -/
def recordRound (pass : Pass) (source : Text) :
    NameTable × List Node → Except Edit.Fault (NameTable × List Node)
  | (table, []) => .ok (table, [])
  | (table, node :: others) =>
    (pass.recordChildren source table node).map fun names => (names, node.children ++ others)

/-- A number of rounds, one after the other. -/
def recordRounds (pass : Pass) (source : Text) :
    Nat → NameTable × List Node → Except Edit.Fault (NameTable × List Node)
  | 0, state => .ok state
  | rounds + 1, state => do
    let next ← pass.recordRound source state
    recordRounds pass source rounds next

/-- After as many rounds as there are nodes, no node is open and all names are recorded. -/
theorem recordRounds_sizeList (pass : Pass) (source : Text) (table : NameTable)
    (stack : List Node) :
    pass.recordRounds source (Node.sizeList stack) (table, stack) =
      (pass.recordBelow source table stack).map fun names => (names, []) := by
  have hrounds : ∀ node others, Node.sizeList (node :: others) =
      Node.sizeList (node.children ++ others) + 1 := by
    intro node others
    rw [Node.sizeList_cons, Node.size_eq, Node.sizeList_append]
    omega
  fun_induction recordBelow pass source table stack with
  | case1 table => rfl
  | case2 table node others fault hfault =>
    rw [hrounds, recordRounds, recordRound, hfault]
    rfl
  | case3 table node others names hnames ih =>
    rw [hrounds, recordRounds, recordRound, hnames]
    exact ih

/-! ## Texts of places -/

/-- The roles and names at some places, if each of them covers a part of the text. -/
def readAll? (source : Text) (places : List (Role × Node)) : Option (List (Role × Text)) :=
  places.mapM fun place =>
    (Text.slice? source place.2.start place.2.stop).map fun name => (place.1, name)

/-- Whether a node is at the first of some places that does not cover a part of the text. -/
def IsFirstFault (source : Text) (places : List (Role × Node)) (node : Node) : Prop :=
  ∃ front role back, places = front ++ (role, node) :: back ∧
    (∀ place ∈ front, (Text.slice? source place.2.start place.2.stop).isSome = true) ∧
    Text.slice? source node.start node.stop = none

/-- The first of several places reads as a name, and the others read as the other ones. -/
theorem readAll?_cons_eq_some {role : Role} {node : Node} {rest : List (Role × Node)}
    {calls : List (Role × Text)} :
    readAll? source ((role, node) :: rest) = some calls ↔
      ∃ name others, Text.slice? source node.start node.stop = some name ∧
        readAll? source rest = some others ∧ calls = (role, name) :: others := by
  rw [readAll?, List.mapM_cons, ← readAll?]
  cases Text.slice? source node.start node.stop <;> cases readAll? source rest <;>
    simp [eq_comm]

/-- Places that cover parts of the text can be read. -/
theorem exists_readAll? {places : List (Role × Node)}
    (h : ∀ place ∈ places, (Text.slice? source place.2.start place.2.stop).isSome = true) :
    ∃ calls, readAll? source places = some calls := by
  induction places with
  | nil => exact ⟨[], rfl⟩
  | cons place rest ih =>
    rcases Option.isSome_iff_exists.mp (h place List.mem_cons_self) with ⟨name, hname⟩
    rcases ih fun other hother => h other (List.mem_cons_of_mem place hother) with ⟨calls, hcalls⟩
    exact ⟨_, readAll?_cons_eq_some.mpr ⟨name, calls, hname, hcalls, rfl⟩⟩

/-- Either all places can be read, or one of them is the first that cannot. -/
theorem exists_readAll?_or_isFirstFault (source : Text) (places : List (Role × Node)) :
    (∃ calls, readAll? source places = some calls) ∨ ∃ node, IsFirstFault source places node := by
  cases hfind : places.find? fun place =>
      (Text.slice? source place.2.start place.2.stop).isNone with
  | none =>
    refine .inl (exists_readAll? fun place hplace => ?_)
    simpa [Option.isSome_iff_ne_none] using List.find?_eq_none.mp hfind place hplace
  | some place =>
    rcases List.find?_eq_some_iff_append.mp hfind with ⟨hnone, front, back, hplaces, hfront⟩
    refine .inr ⟨place.2, front, place.1, back, hplaces, ?_, Option.isNone_iff_eq_none.mp hnone⟩
    intro other hother
    simpa [Option.isSome_iff_ne_none] using hfront other hother

/-- A node that covers nothing reads as the empty text. -/
theorem eq_nil_of_slice? {offset : Nat} {text : Text}
    (h : Text.slice? source offset offset = some text) : text = [] := by
  rcases (Text.slice?_eq_some_iff _ _ _ _).mp h with ⟨before, after, -, hstart, hstop⟩
  rw [Text.byteLength_append] at hstop
  exact (Text.byteLength_eq_zero_iff text).mp (by omega)

/-- A place that reads as a name is recorded by inserting the name. -/
theorem recordAll_cons_of_slice? {role : Role} {node : Node} {name : Text}
    (h : Text.slice? source node.start node.stop = some name) (table : NameTable)
    (rest : List (Role × Node)) :
    recordAll source table ((role, node) :: rest) =
      recordAll source (table.insert role name).2 rest := by
  rw [recordAll, List.foldlM_cons, textOf, h]
  rfl

/-- Places that can be read are recorded by inserting their names. -/
theorem recordAll_of_readAll? {places : List (Role × Node)} {calls : List (Role × Text)}
    (h : readAll? source places = some calls) (table : NameTable) :
    recordAll source table places = .ok (table.insertAll calls) := by
  induction places generalizing calls table with
  | nil =>
    cases h
    rfl
  | cons place rest ih =>
    rcases readAll?_cons_eq_some.mp h with ⟨name, others, hname, hothers, rfl⟩
    rw [recordAll_cons_of_slice? hname, ih hothers]
    rfl

/-- Places that cover nothing add nothing. -/
theorem recordAll_filter_of_readAll? {places : List (Role × Node)} {calls : List (Role × Text)}
    (h : readAll? source places = some calls) (table : NameTable) :
    recordAll source table (places.filter fun place => place.2.start ≠ place.2.stop) =
      .ok (table.insertAll calls) := by
  induction places generalizing calls table with
  | nil =>
    cases h
    rfl
  | cons place rest ih =>
    rcases place with ⟨role, node⟩
    rcases readAll?_cons_eq_some.mp h with ⟨name, others, hname, hothers, rfl⟩
    rw [NameTable.insertAll_cons, List.filter_cons]
    split
    · rw [recordAll_cons_of_slice? hname, ih hothers]
    · rename_i hempty
      have hsame : node.start = node.stop := by simpa using hempty
      rw [hsame] at hname
      rw [eq_nil_of_slice? hname, NameTable.insert_nil, ih hothers]

/-- The first place that does not cover a part of the text is reported. -/
theorem recordAll_of_isFirstFault {places : List (Role × Node)} {node : Node}
    (h : IsFirstFault source places node) (table : NameTable) :
    recordAll source table places =
      .error (.invalid node.start node.stop (Text.byteLength source)) := by
  rcases h with ⟨front, role, back, rfl, hfront, hnone⟩
  rcases exists_readAll? hfront with ⟨calls, hcalls⟩
  rw [recordAll_append, recordAll_of_readAll? hcalls]
  show recordAll source (table.insertAll calls) ((role, node) :: back) = _
  rw [recordAll, List.foldlM_cons, textOf, hnone]
  rfl

/-! ## Discovery -/

open NameTable in
/-- What is told about the names that are collected from a declaration. -/
structure IsDiscoveryOf (pass : Pass) (source : Text) (declaration : Node)
    (result : Except Edit.Fault NameTable) : Prop where
  /-- After as many rounds as there are nodes, the loop has come to its end. -/
  ends : pass.recordRounds source declaration.preorder.length (.empty, [declaration]) =
    result.map fun names => (names, [])
  /-- The nodes are taken in document order, and the names of the children of each node are recorded
  from left to right. -/
  recorded : result = recordAll source .empty (pass.introducedBelow declaration)
  /-- Every child of a node that introduces a name is discovered, whatever declarations it stands
  in, and everything inside of its earlier siblings only after it. -/
  ordered : ∀ parent ∈ declaration.preorder, ∀ earlier child later role,
    parent.children = earlier ++ child :: later →
    pass.classify child.kind parent.kind child.field = some role →
    ∃ front back, pass.introducedBelow declaration = front ++ (role, child) :: back ∧
      ∀ sibling ∈ earlier, pass.introducedBelow sibling <:+: back
  /-- The recorded names are the different ones that stand at these places, and the `index`-th of a
  numbered role has the placeholder with that index. -/
  numbered : ∀ names, result = .ok names → ∃ calls,
    readAll? source (pass.introducedBelow declaration) = some calls ∧
      names.pairs = firstOccurrences calls ∧
      ∀ role name index, role.isNumbered = true →
        (namesIn role (firstOccurrences calls))[index]? = some name →
        names.get? role name = some (role.stem ++ Nat.toDigits 10 index ++ ['_'])
  /-- Places that cover nothing add nothing. -/
  skipped : ∀ names, result = .ok names →
    recordAll source .empty ((pass.introducedBelow declaration).filter fun place =>
      place.2.start ≠ place.2.stop) = .ok names
  /-- Collecting fails exactly if one of the places does not cover a part of the text, and reports
  the first of them. -/
  failed : ∀ fault, result = .error fault ↔
    ∃ node, IsFirstFault source (pass.introducedBelow declaration) node ∧
      fault = .invalid node.start node.stop (Text.byteLength source)

/-- What the loop collects, recorded in document order. -/
theorem declaredNames_eq_recordAll (pass : Pass) (source : Text) (declaration : Node) :
    pass.declaredNames source declaration =
      recordAll source .empty (pass.introducedBelow declaration) := by
  rw [declaredNames, recordBelow_eq_recordAll, Node.preorderList_cons, Node.preorderList_nil,
    List.append_nil, introducedBelow]

/-- A child that introduces a name is listed in front of everything inside of its earlier
siblings. -/
theorem exists_introducedBelow_append {root parent : Node} (hparent : parent ∈ root.preorder)
    {earlier later : List Node} {child : Node} {role : Role}
    (hchildren : parent.children = earlier ++ child :: later)
    (hrole : pass.classify child.kind parent.kind child.field = some role) :
    ∃ front back, pass.introducedBelow root = front ++ (role, child) :: back ∧
      ∀ sibling ∈ earlier, pass.introducedBelow sibling <:+: back := by
  rcases (Node.preorder_infix_of_mem hparent).flatMap pass.introducedBy with ⟨before, after, hroot⟩
  have hby : ∃ first second, pass.introducedBy parent = first ++ (role, child) :: second := by
    rw [introducedBy, hchildren, List.filterMap_append,
      List.filterMap_cons_some (by rw [hrole]; rfl)]
    exact ⟨_, _, rfl⟩
  rcases hby with ⟨first, second, hby⟩
  refine ⟨before ++ first,
    second ++ ((Node.preorderList parent.children).flatMap pass.introducedBy ++ after), ?_, ?_⟩
  · rw [introducedBelow, ← hroot, ← introducedBelow, introducedBelow_eq, hby]
    simp only [List.append_assoc, List.cons_append]
  · intro sibling hsibling
    have hmem : sibling ∈ Node.preorderList parent.children := by
      rw [hchildren]
      exact Node.mem_preorderList_of_mem (List.mem_append_left _ hsibling)
    exact (introducedBelow_infix_of_mem hmem).trans (List.infix_append' _ _ _)

/-- Names are recorded only if all places can be read. -/
theorem exists_readAll?_of_recordAll {places : List (Role × Node)} {table names : NameTable}
    (h : recordAll source table places = .ok names) :
    ∃ calls, readAll? source places = some calls ∧ names = table.insertAll calls := by
  rcases exists_readAll?_or_isFirstFault source places with ⟨calls, hcalls⟩ | ⟨node, hnode⟩
  · rw [recordAll_of_readAll? hcalls] at h
    exact ⟨calls, hcalls, (Except.ok.inj h).symm⟩
  · rw [recordAll_of_isFirstFault hnode] at h
    cases h

/-- Recording fails exactly if one of the places does not cover a part of the text, and reports the
first of them. -/
theorem recordAll_eq_error_iff {places : List (Role × Node)} {table : NameTable}
    {fault : Edit.Fault} :
    recordAll source table places = .error fault ↔
      ∃ node, IsFirstFault source places node ∧
        fault = .invalid node.start node.stop (Text.byteLength source) := by
  constructor
  · intro h
    rcases exists_readAll?_or_isFirstFault source places with ⟨calls, hcalls⟩ | ⟨node, hnode⟩
    · rw [recordAll_of_readAll? hcalls] at h
      cases h
    · rw [recordAll_of_isFirstFault hnode] at h
      exact ⟨node, hnode, (Except.error.inj h).symm⟩
  · rintro ⟨node, hnode, rfl⟩
    exact recordAll_of_isFirstFault hnode table

/-- The names of a declaration are collected in the order that is told here. -/
theorem isDiscoveryOf_declaredNames (pass : Pass) (source : Text) (declaration : Node) :
    IsDiscoveryOf pass source declaration (pass.declaredNames source declaration) := by
  have hrecorded := declaredNames_eq_recordAll pass source declaration
  refine ⟨?_, hrecorded, ?_, ?_, ?_, ?_⟩
  · have hrounds := recordRounds_sizeList pass source .empty [declaration]
    rw [Node.sizeList_cons, Node.sizeList_nil, Nat.add_zero] at hrounds
    rw [Node.length_preorder]
    exact hrounds
  · intro parent hparent earlier child later role
    exact exists_introducedBelow_append hparent
  · intro names hnames
    rw [hrecorded] at hnames
    rcases exists_readAll?_of_recordAll hnames with ⟨calls, hcalls, rfl⟩
    refine ⟨calls, hcalls, NameTable.pairs_insertAll calls, ?_⟩
    intro role name index hrole hindex
    rw [← NameTable.pairs_insertAll] at hindex
    rw [NameTable.get?_of_index (NameTable.isNumbered_insertAll calls) hindex, Role.placeholder,
      hrole, if_pos rfl]
  · intro names hnames
    rw [hrecorded] at hnames
    rcases exists_readAll?_of_recordAll hnames with ⟨calls, hcalls, rfl⟩
    exact recordAll_filter_of_readAll? hcalls .empty
  · intro fault
    rw [hrecorded]
    exact recordAll_eq_error_iff

/-- A parameter with a decorator: its own name is discovered before that of the parameter inside of
the decorator, although it stands behind it. -/
example : (Pass.functionScope.declaredNames "@d((x)=>0) p".toList
      (.mk ⟨"required_parameter", none, 0, 12, false, false, false⟩
        [.mk ⟨"decorator", some "decorator", 0, 10, false, false, false⟩
          [.mk ⟨"required_parameter", none, 4, 5, false, false, false⟩
            [.mk ⟨"identifier", some "pattern", 4, 5, false, false, false⟩ []]],
        .mk ⟨"identifier", some "pattern", 11, 12, false, false, false⟩ []])).map (·.entries) =
    .ok [⟨.variableName, ['p'], "_variable0_".toList⟩,
      ⟨.variableName, ['x'], "_variable1_".toList⟩] := by
  decide +kernel

end Pass

end SourceMask
