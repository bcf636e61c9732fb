import SourceMask.Proofs.Masking.Frame
import SourceMask.Proofs.Token.Alignment

/-!
# Masking keeps tokens aligned

If all names that are collected are ASCII identifiers, then masking exchanges identifiers for
identifiers, because placeholders are identifiers as well.  The masked text is therefore scanned in
step with the text.  This carries over from one sweep to all sweeps of a declaration, from the
declarations to the text, and from one pass to all passes.

Main results:

- Theorem `isIdentifier_placeholder`: placeholders are identifiers.
- Theorem `scansAlike_mask`: a text and the text with its names masked are scanned alike.
- Theorem `allAlike_scan_of_run`: the tokens before and after all passes are alike.
-/

namespace SourceMask

/-! ## Placeholders -/

/-- Placeholders are identifiers: they are made of letters, decimal digits and low lines. -/
theorem Role.isIdentifier_placeholder (role : Role) (index : Nat) :
    Text.isIdentifier (role.placeholder index) = true := by
  rcases role.exists_placeholder_eq index with ⟨rest, hplaceholder, hrest⟩
  rw [hplaceholder, Text.isIdentifier, hrest]
  rfl

namespace NameTable

/-- Whether all recorded names are ASCII identifiers. -/
def HasIdentifiers (table : NameTable) : Prop :=
  ∀ entry ∈ table.entries, Text.isIdentifier entry.name = true

instance (table : NameTable) : Decidable table.HasIdentifiers :=
  inferInstanceAs (Decidable (∀ entry ∈ table.entries, Text.isIdentifier entry.name = true))

variable {table : NameTable}

/-- What is written for an identifier is an identifier. -/
theorem isIdentifier_getD (hrecorded : table.IsRecorded) (role : Role) {name : Text}
    (hname : Text.isIdentifier name = true) :
    Text.isIdentifier ((table.get? role name).getD name) = true := by
  cases hget : table.get? role name with
  | none => exact hname
  | some placeholder =>
    rcases exists_entry_of_get? hget with ⟨entry, hentry, -, -, rfl⟩
    rcases hrecorded entry hentry with ⟨-, index, hindex⟩
    rw [Option.getD_some, hindex]
    exact entry.role.isIdentifier_placeholder index

/-- Writing the pieces of a sweep exchanges the names that were found. -/
theorem renames_render (hrecorded : table.IsRecorded) (role : Role)
    {pieces : List Lexicon.Piece}
    (hnames : ∀ finding, .found finding ∈ pieces → Text.isIdentifier finding.name = true) :
    Token.Renames (pieces.flatMap Lexicon.Piece.source) (pieces.flatMap (table.render role)) := by
  induction pieces with
  | nil => exact .done
  | cons piece rest ih =>
    have hrest := ih fun finding hfinding => hnames finding (List.mem_cons_of_mem piece hfinding)
    rw [List.flatMap_cons, List.flatMap_cons]
    refine Token.Renames.append ?_ hrest
    cases piece with
    | passed c => exact Token.Renames.refl [c]
    | found finding =>
      have hname := hnames finding List.mem_cons_self
      have hplaceholder := isIdentifier_getD hrecorded role hname
      have hexchange := Token.Renames.rename hname hplaceholder .done
      rw [List.append_nil, List.append_nil] at hexchange
      exact (Token.Renames.refl finding.anchor).append hexchange

/-- One sweep leaves a text that is scanned alike. -/
theorem scansAlike_maskRole (hrecorded : table.IsRecorded) (hnames : table.HasIdentifiers)
    (role : Role) (text : Text) : Token.ScansAlike text (table.maskRole role text) := by
  by_cases hrole : table.ofRole role = []
  · rw [maskRole_of_nil hrole]
    exact Token.ScansAlike.refl text
  · have hfound : ∀ finding, .found finding ∈ (table.lexicon role).sweep text →
        Text.isIdentifier finding.name = true := by
      intro finding hfinding
      rcases exists_entry_of_mem_lexicon hrole (Lexicon.name_mem_of_mem_sweepFrom hfinding) with
        ⟨entry, hentry, -, hname⟩
      rw [← hname]
      exact hnames entry hentry
    have hrenames := renames_render hrecorded role hfound
    rw [Lexicon.sweep, Lexicon.source_sweepFrom] at hrenames
    rw [maskRole_of_ne hrole]
    exact Token.scansAlike_of_renames hrenames

/-- A text and the text with its names masked are scanned alike. -/
theorem scansAlike_mask (hrecorded : table.IsRecorded) (hnames : table.HasIdentifiers)
    (text : Text) : Token.ScansAlike text (table.mask text) :=
  mask_induction (P := Token.ScansAlike text) (Token.ScansAlike.refl text)
    fun role current halike => halike.trans (scansAlike_maskRole hrecorded hnames role current)

end NameTable

/-! ## Passes -/

/-- Whether a pass collects ASCII identifiers only from the outermost declarations of a tree. -/
def Pass.CollectsIdentifiers (pass : Pass) (source : Text) (root : Node) : Prop :=
  ∀ declaration ∈ pass.outermost root, ∀ names,
    pass.declaredNames source declaration = .ok names → names.HasIdentifiers

instance (pass : Pass) (source : Text) (declaration : Node) :
    Decidable (∀ names, pass.declaredNames source declaration = .ok names →
      names.HasIdentifiers) :=
  match pass.declaredNames source declaration with
  | .ok names =>
    decidable_of_iff names.HasIdentifiers
      ⟨fun h _ hsame => by cases hsame; exact h, fun h => h names rfl⟩
  | .error _ => isTrue fun _ hsame => by cases hsame

instance (pass : Pass) (source : Text) (root : Node) :
    Decidable (pass.CollectsIdentifiers source root) :=
  inferInstanceAs (Decidable (∀ declaration ∈ pass.outermost root, ∀ names,
    pass.declaredNames source declaration = .ok names → names.HasIdentifiers))

/-- A text and the text that a pass gives for it are scanned alike. -/
theorem Pass.scansAlike_of_masks {pass : Pass} {source result : Text} {root : Node}
    (hnames : pass.CollectsIdentifiers source root) (h : pass.Masks source root result) :
    Token.ScansAlike source result := by
  refine Token.ScansAlike.of_exchanges ?_ h
  rintro declaration hmem slice _ ⟨names, hcollected, rfl⟩
  exact NameTable.scansAlike_mask (isRecorded_declaredNames hcollected)
    (hnames declaration hmem names hcollected) slice

namespace Masking

variable {masking : Masking} {parser : Parser} {origin : Option Path} {dialect : Dialect}

/-- Run some passes, each on the text that the one before it left. -/
def runPasses (masking : Masking) (parser : Parser) (origin : Option Path) (dialect : Dialect)
    (passes : List Pass) (text : Text) : Except Failure Text :=
  passes.foldlM (fun text pass => masking.runPass parser ⟨origin, pass, dialect, text⟩) text

/-- Whether a run over a text comes to ask for the tree of a text for a pass: the passes before it
lead there. -/
def Asks (masking : Masking) (parser : Parser) (origin : Option Path) (dialect : Dialect)
    (text : Text) (pass : Pass) (current : Text) : Prop :=
  ∃ earlier later, masking.passes = earlier ++ pass :: later ∧
    masking.runPasses parser origin dialect earlier text = .ok current

/-- A pass that succeeds has worked on a tree that the parser gave and the check let pass. -/
theorem exists_tree_of_runPass {request : Request} {result : Text}
    (h : masking.runPass parser request = .ok result) :
    ∃ root, parser request = some root ∧
      parser.tree masking.rejectsDefects request = .ok root := by
  cases htree : parser.tree masking.rejectsDefects request with
  | error fault =>
    rw [runPass, htree] at h
    cases h
  | ok root =>
    refine ⟨root, ?_, rfl⟩
    unfold Parser.tree at htree
    cases hanswer : parser request with
    | none =>
      rw [hanswer] at htree
      cases htree
    | some other =>
      rw [hanswer] at htree
      simp only [Node.check] at htree
      split at htree
      · cases htree
      · cases htree
        rfl

/-- A pass leaves a text that is scanned alike. -/
theorem scansAlike_of_runPass {request : Request} {result : Text}
    (htree : ∀ root, parser request = some root →
      root.isWellFormed request.text = true ∧
        request.pass.CollectsIdentifiers request.text root)
    (hrun : masking.runPass parser request = .ok result) :
    Token.ScansAlike request.text result := by
  rcases exists_tree_of_runPass hrun with ⟨root, hanswer, hroot⟩
  rcases htree root hanswer with ⟨hwf, hnames⟩
  rcases Pass.exists_masks request.pass hwf with ⟨masked, hmasks⟩
  rw [runPass_of_masks hroot hmasks] at hrun
  cases hrun
  exact Pass.scansAlike_of_masks hnames hmasks

/-- Some passes leave a text that is scanned alike, if every tree that they ask for is well formed
and gives identifiers only. -/
theorem scansAlike_of_runPasses {passes : List Pass} {text result : Text}
    (htrees : ∀ earlier pass later, passes = earlier ++ pass :: later → ∀ current root,
      masking.runPasses parser origin dialect earlier text = .ok current →
      parser ⟨origin, pass, dialect, current⟩ = some root →
      root.isWellFormed current = true ∧ pass.CollectsIdentifiers current root)
    (hrun : masking.runPasses parser origin dialect passes text = .ok result) :
    Token.ScansAlike text result := by
  induction passes generalizing text with
  | nil =>
    cases hrun
    exact Token.ScansAlike.refl _
  | cons pass passes ih =>
    rw [runPasses, List.foldlM_cons] at hrun
    cases hpass : masking.runPass parser ⟨origin, pass, dialect, text⟩ with
    | error failure =>
      rw [hpass] at hrun
      cases hrun
    | ok next =>
      rw [hpass] at hrun
      have hfirst : Token.ScansAlike text next :=
        scansAlike_of_runPass (fun root => htrees [] pass passes rfl text root rfl) hpass
      refine hfirst.trans (ih ?_ hrun)
      intro earlier other later hpasses current root hcurrent
      apply htrees (pass :: earlier) other later (by rw [hpasses]; rfl) current root
      rw [runPasses, List.foldlM_cons, hpass]
      exact hcurrent

/-- If every tree that a run asks for is well formed and gives ASCII identifiers only, then the
tokens of the text and of the result are alike: there are as many, and at each place both are
equal, or both are names, or both are strings. -/
theorem allAlike_scan_of_run {text result : Text}
    (htrees : ∀ pass current root, masking.Asks parser origin dialect text pass current →
      parser ⟨origin, pass, dialect, current⟩ = some root →
      root.isWellFormed current = true ∧ pass.CollectsIdentifiers current root)
    (hrun : masking.run parser origin dialect text = .ok result) :
    Token.AllAlike (Token.scan text) (Token.scan result) := by
  have halike : Token.ScansAlike text result := by
    refine scansAlike_of_runPasses ?_ hrun
    intro earlier pass later hpasses current root hcurrent
    exact htrees pass current root ⟨earlier, later, hpasses, hcurrent⟩
  simpa using halike [] []

/-- In the run of the first pass over a class with a field, every tree that is asked for is well
formed and gives identifiers only. -/
theorem fieldClass_trees (pass : Pass) (current : Text) (root : Node)
    (hasks : Asks { functionScope := false } (.ofTrees [fieldClass]) none .typescript
      fieldClassText pass current)
    (hanswer : Parser.ofTrees [fieldClass] ⟨none, pass, .typescript, current⟩ = some root) :
    root.isWellFormed current = true ∧ pass.CollectsIdentifiers current root := by
  rcases hasks with ⟨earlier, later, hpasses, hcurrent⟩
  cases earlier with
  | nil =>
    cases hpasses
    cases hcurrent
    cases hanswer
    decide +kernel
  | cons first earlier =>
    cases earlier <;> cases hpasses

/-- Masking a class with a field keeps the tokens aligned. -/
theorem allAlike_scan_of_run_fieldClass :
    (∀ pass current root,
      Asks { functionScope := false } (.ofTrees [fieldClass]) none .typescript fieldClassText pass
        current →
      Parser.ofTrees [fieldClass] ⟨none, pass, .typescript, current⟩ = some root →
      root.isWellFormed current = true ∧ pass.CollectsIdentifiers current root) ∧
    run { functionScope := false } (.ofTrees [fieldClass]) none .typescript fieldClassText =
      .ok "/*é*/class _class_ {_property0_}".toList ∧
    Token.AllAlike (Token.scan fieldClassText)
      (Token.scan "/*é*/class _class_ {_property0_}".toList) := by
  have hrun : run { functionScope := false } (.ofTrees [fieldClass]) none .typescript
      fieldClassText = .ok "/*é*/class _class_ {_property0_}".toList := by
    decide +kernel
  exact ⟨fieldClass_trees, hrun, allAlike_scan_of_run fieldClass_trees hrun⟩

end Masking

end SourceMask
