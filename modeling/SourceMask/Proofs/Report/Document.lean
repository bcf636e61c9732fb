import SourceMask.Proofs.Json.RoundTrip
import SourceMask.Report

/-!
# Reading a JSON report back

A JSON report is a document that lists one record for each outcome.  The records of processed files
and of failed files are told apart by their fields alone: the first have a dialect and tokens, and
the second have neither.  So the list of outcomes is found again in the document, each outcome in
the form that it had.

Only an outcome whose path is a text has a record.  If one of the paths is none, the document holds
the reason instead, and no outcomes are found in it.

Main results:

- Theorem `exists_toData`: an outcome whose path is a text is found again in its data.
- Theorem `json_of_noText`: what is reported if a path is no text.
- Theorem `outcomes?_json`: the outcomes are found again in their report.
-/

namespace SourceMask

namespace Outcome

/-! ## One outcome -/

/-- The name of a dialect stands for the dialect. -/
theorem ofExactName?_name (dialect : Dialect) :
    Dialect.ofExactName? dialect.name.toList = some dialect := by
  cases dialect <;> decide

/-- The texts of a token sequence are found again in its data. -/
theorem toTexts?_tokensData (tokens : List Token) :
    (tokensData tokens).toTexts? = some (tokens.map Token.text) := by
  induction tokens with
  | nil => rfl
  | cons token rest ih =>
    simp only [tokensData, Data.toTexts?] at ih ⊢
    simp [Data.toText?, ih]

/-- A path that is a text is recorded as that text. -/
theorem pathData_of_text? {path : Path} {text : Text} (h : path.text? = some text) :
    pathData path = .ok (.text text) := by
  rw [pathData, h]

/-- A path that is no text is not recorded. -/
theorem pathData_of_text?_eq_none {path : Path} (h : path.text? = none) :
    pathData path = .error noTextReason := by
  rw [pathData, h]

/-- Three values that were written for a processed file describe it. -/
theorem processedOf?_data {file : ProcessedFile} {text : Text} (h : file.path.text? = some text) :
    processedOf? (.text text) (.word file.dialect.name) (tokensData file.tokens) = some file := by
  have htokens : (file.tokens.map Token.text).map Token.mk = file.tokens := by
    rw [List.map_map]
    exact List.map_id file.tokens
  simp only [processedOf?, Data.toText?, Data.word, Data.choice?, ofExactName?_name,
    toTexts?_tokensData, htokens, ← Path.text?_eq_some_iff.mp h, Option.bind_eq_bind,
    Option.bind_some, Option.pure_def]

/-- Tokens are written with texts and lists only. -/
theorem isTextual_tokensData (tokens : List Token) : (tokensData tokens).isTextual = true := by
  rw [tokensData, Data.isTextual]
  induction tokens with
  | nil => rfl
  | cons token rest ih => exact ih

/-- An outcome whose path is a text has data, which is made of texts, lists and records, and in
which the outcome is found again. -/
theorem exists_toData {outcome : Outcome} {text : Text} (h : outcome.path.text? = some text) :
    ∃ data, outcome.toData = .ok data ∧ ofData? data = some outcome ∧ data.isTextual = true := by
  cases outcome with
  | processed file =>
    have hpath : file.path.text? = some text := h
    refine ⟨_, by rw [toData, pathData_of_text? hpath]; rfl, ?_, ?_⟩
    · simp [ofData?, processed?, Data.field?, List.lookup_cons, processedOf?_data hpath]
    · simp [Data.word, Data.isTextual, Data.haveTextual, isTextual_tokensData]
  | failed path reason =>
    have hpath : path.text? = some text := h
    refine ⟨_, by rw [toData, pathData_of_text? hpath]; rfl, ?_, rfl⟩
    simp [ofData?, processed?, failed?, Data.field?, List.lookup_cons, Data.toText?,
      ← Path.text?_eq_some_iff.mp hpath]

/-- An outcome whose path is no text has no data. -/
theorem toData_of_noText {outcome : Outcome} (h : outcome.path.text? = none) :
    outcome.toData = .error noTextReason := by
  cases outcome with
  | processed file =>
    have hpath : file.path.text? = none := h
    rw [toData, pathData_of_text?_eq_none hpath]
    rfl
  | failed path reason =>
    have hpath : path.text? = none := h
    rw [toData, pathData_of_text?_eq_none hpath]
    rfl

/-! ## Lists of outcomes -/

/-- Outcomes whose paths are texts are found again in the list of their data. -/
theorem exists_mapM_toData {outcomes : List Outcome}
    (h : ∀ outcome ∈ outcomes, outcome.path.text?.isSome = true) :
    ∃ items, outcomes.mapM toData = .ok items ∧ items.mapM ofData? = some outcomes ∧
      Data.areTextual items = true := by
  induction outcomes with
  | nil => exact ⟨[], rfl, rfl, rfl⟩
  | cons outcome rest ih =>
    rcases Option.isSome_iff_exists.mp (h outcome List.mem_cons_self) with ⟨text, htext⟩
    rcases exists_toData htext with ⟨data, hdata, hread, htextual⟩
    rcases ih fun other hother => h other (List.mem_cons_of_mem outcome hother) with
      ⟨items, hitems, hreads, htextuals⟩
    refine ⟨data :: items, ?_, ?_, ?_⟩
    · rw [List.mapM_cons, hdata, hitems]
      rfl
    · rw [List.mapM_cons, hread, hreads]
      rfl
    · rw [Data.areTextual, htextual, htextuals]
      rfl

/-- If one of several paths is no text, the outcomes have no data. -/
theorem mapM_toData_of_noText {outcomes : List Outcome} {outcome : Outcome}
    (hmem : outcome ∈ outcomes) (h : outcome.path.text? = none) :
    outcomes.mapM toData = .error noTextReason := by
  induction outcomes with
  | nil => cases hmem
  | cons first rest ih =>
    rw [List.mapM_cons]
    cases hfirst : first.path.text? with
    | none =>
      rw [toData_of_noText hfirst]
      rfl
    | some text =>
      rcases exists_toData hfirst with ⟨data, hdata, -⟩
      have hrest : outcome ∈ rest := by
        rcases List.mem_cons.mp hmem with rfl | hrest
        · rw [hfirst] at h
          cases h
        · exact hrest
      rw [hdata, ih hrest]
      rfl

end Outcome

namespace Report

/-! ## The report -/

/-- The outcomes that a JSON document lists. -/
def outcomes? (document : Text) : Option (List Outcome) :=
  match Json.read? document with
  | some (.list items) => items.mapM Outcome.ofData?
  | _ => none

/-- Outcomes whose paths are texts are found again in their report. -/
theorem outcomes?_json_of_texts {outcomes : List Outcome}
    (h : ∀ outcome ∈ outcomes, outcome.path.text?.isSome = true) :
    outcomes? (json outcomes) = some outcomes := by
  rcases Outcome.exists_mapM_toData h with ⟨items, hitems, hreads, htextuals⟩
  have htextual : (Data.list items).isTextual = true := htextuals
  simp only [outcomes?, json, hitems, Json.read?_pretty htextual, hreads]

/-- If one of the paths is no text, this is reported instead of the outcomes. -/
theorem json_of_noText {outcomes : List Outcome} {outcome : Outcome} (hmem : outcome ∈ outcomes)
    (h : outcome.path.text? = none) :
    json outcomes = errorDocument Outcome.noTextReason := by
  simp only [json, Outcome.mapM_toData_of_noText hmem h]

/-- No outcomes are found in the document that tells why there is no report. -/
theorem outcomes?_errorDocument :
    outcomes? (errorDocument Outcome.noTextReason) = none := by
  decide +kernel

/-- The outcomes are found again in their report, if all paths are texts; otherwise there are none
to be found in it. -/
theorem outcomes?_json (outcomes : List Outcome) :
    outcomes? (json outcomes) =
      if outcomes.all fun outcome => outcome.path.text?.isSome then some outcomes else none := by
  split
  · rename_i hall
    exact outcomes?_json_of_texts (List.all_eq_true.mp hall)
  · rename_i hall
    have hpath : ∃ outcome ∈ outcomes, outcome.path.text? = none := by
      simpa using hall
    rcases hpath with ⟨outcome, hmem, hnone⟩
    rw [json_of_noText hmem hnone, outcomes?_errorDocument]

end Report

end SourceMask
