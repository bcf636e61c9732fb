import SourceMask.CommandLine.Run
import SourceMask.Proofs.Masking.Frame
import SourceMask.Proofs.Report.Document
import SourceMask.Proofs.Report.ReadBack
import SourceMask.Proofs.Store.Written

/-!
# Two commands on one file

The tokens of a file and its masked text come out of two commands.  The first one opens the file as
one of a batch, looks at its size, and prepares it; the second one reads the file at once, masks its
text, and puts a line break behind it.  On a file that is not too large they fail for the same
reasons, and the tokens of the first are found in the text of the second.

They part only behind that.  What they put out are two texts, and where these go one may be taken
and the other refused: a device without room takes a report of no tokens, since there is nothing to
write, but not the line break behind a masked text.  And a report in JSON has no tokens if the path
of the file is no text, although the run succeeds.

Main results:

- Theorem `scan_concat_lineBreak`: a line break behind a text with an even number of delimiters
  makes no difference to its tokens.
- Theorem `outputOf_alike`: on one file both commands put something out, or both fail.
- Theorem `status_deliver_eq_zero_iff`: a run succeeds if all went well and its text is taken.
- Theorem `takes_of_takes`: where nothing is refused for special reasons, a text is taken if another
  one is, unless there is room for nothing.
- Theorem `tells_reportOf`: what the report on a file tells.
- Theorem `agreement_runInvocation`: the runs of the two commands agree.
-/

namespace SourceMask

namespace Token

/-! ## A line break at the end -/

/-- A line break behind a text with an even number of delimiters makes no difference to its
tokens. -/
theorem scan_concat_lineBreak {text : Text} (h : (text ++ ['\n']).countP isDelimiter % 2 = 0) :
    scan (text ++ ['\n']) = scan text := by
  have hbalanced : IsBalanced false text := by
    rw [List.countP_append] at h
    exact h
  have hblank : ['\n'].all Text.isBlank = true := rfl
  rw [scan, scan, scanFrom_concat_blanks hbalanced hblank]

end Token

/-! ## Files that are not too large -/

namespace Store

variable {store : Store} {path : Path}

/-- A file that has a text and is not too large has a size that is not too large. -/
theorem exists_size_of_text {text : Text} {limit : Nat} (htext : store.text path = .ok text)
    (hlimit : ∀ bytes, store.find path = .ok (.file bytes) → bytes.size ≤ limit) :
    ∃ size, store.size path = .ok size ∧ size ≤ limit := by
  unfold Store.text Store.bytes at htext
  unfold Store.size
  cases hfind : store.find path with
  | error fault =>
    rw [hfind] at htext
    cases htext
  | ok content =>
    cases content with
    | file bytes => exact ⟨bytes.size, rfl, hlimit bytes hfind⟩
    | directory =>
      rw [hfind] at htext
      cases htext
    | device device => exact ⟨0, rfl, Nat.zero_le limit⟩

end Store

namespace Settings

variable {settings : Settings} {store : Store} {file : Path}

/-- A file that is opened has the dialect that its name tells, and its text is not read yet. -/
theorem openFile_eq_ok {opened : SourceFile} (h : settings.openFile store file = .ok opened) :
    opened.path = file ∧ opened.dialect = SourceFile.dialectOf file settings.masking.dialect ∧
      opened.content = none := by
  unfold openFile SourceFile.openIn at h
  cases hsize : store.size file with
  | error fault =>
    rw [hsize] at h
    cases h
  | ok size =>
    rw [hsize] at h
    change (if settings.masking.maxFileSize < size then _ else _) = _ at h
    split at h
    · cases h
    · cases h
      exact ⟨rfl, rfl, rfl⟩

/-- A file that has a text and is not too large can be opened. -/
theorem exists_openFile {text : Text} (htext : store.text file = .ok text)
    (hlimit : ∀ bytes, store.find file = .ok (.file bytes) →
      bytes.size ≤ settings.masking.maxFileSize) :
    ∃ opened, settings.openFile store file = .ok opened := by
  rcases Store.exists_size_of_text htext hlimit with ⟨size, hsize, hle⟩
  unfold openFile SourceFile.openIn
  rw [hsize]
  exact ⟨_, if_neg (Nat.not_lt.mpr hle)⟩

/-- The text of a file that has been opened is the one that is there. -/
theorem load_of_openFile {opened : SourceFile} (h : settings.openFile store file = .ok opened) :
    (opened.load store).1 = store.text file := by
  rcases openFile_eq_ok h with ⟨hpath, -, hcontent⟩
  simp only [SourceFile.load, hcontent, hpath]
  cases store.text file <;> rfl

/-- What has been opened is masked and scanned in the dialect that the name of the file tells. -/
theorem prepareFile_of_openFile {opened : SourceFile}
    (h : settings.openFile store file = .ok opened) (parser : Parser) :
    settings.prepareFile parser store file =
      (((store.text file).mapError .access).bind fun text =>
        settings.maskText parser (some file) (SourceFile.dialectOf file settings.masking.dialect)
          text).map fun masked =>
            ⟨file, SourceFile.dialectOf file settings.masking.dialect, Token.scan masked⟩ := by
  rcases openFile_eq_ok h with ⟨-, hdialect, -⟩
  simp only [prepareFile, h, load_of_openFile h, hdialect, bind, Except.bind, prepareText]
  cases store.text file with
  | error fault => rfl
  | ok text =>
    simp only [Except.mapError]
    cases settings.maskText parser (some file)
      (SourceFile.dialectOf file settings.masking.dialect) text <;> rfl

/-- A file whose text cannot be read is not prepared. -/
theorem exists_prepareFile_error (settings : Settings) {fault : AccessFault}
    (htext : store.text file = .error fault) (parser : Parser) :
    ∃ failure, settings.prepareFile parser store file = .error failure := by
  cases hopen : settings.openFile store file with
  | error failure =>
    refine ⟨failure, ?_⟩
    rw [prepareFile, hopen]
    rfl
  | ok opened =>
    refine ⟨.access fault, ?_⟩
    rw [prepareFile_of_openFile hopen, htext]
    rfl

end Settings

/-! ## The output of both commands -/

namespace CommandLine

open Settings

variable {settings : Settings} {parser : Parser} {store : Store} {file : Path}

/-- On a file that is not too large both commands succeed, the tokens of the first being those of
the masked text without its last line break, or both fail. -/
theorem outputOf_alike (parser : Parser)
    (hlimit : ∀ bytes, store.find file = .ok (.file bytes) →
      bytes.size ≤ settings.masking.maxFileSize) :
    (∃ masked,
      outputOf settings parser store (.anonymize file) = .ok (masked ++ ['\n'], true) ∧
        settings.prepareFiles parser store [file] = [.processed ⟨file,
          SourceFile.dialectOf file settings.masking.dialect, Token.scan masked⟩]) ∨
      ∃ failure reason,
        outputOf settings parser store (.anonymize file) = .error failure ∧
          settings.prepareFiles parser store [file] = [.failed file reason] := by
  have hbatch : ∀ attempt, settings.prepareFile parser store file = attempt →
      settings.prepareFiles parser store [file] = [.ofAttempt file attempt] := by
    rintro attempt rfl
    rfl
  cases htext : store.text file with
  | error fault =>
    rcases exists_prepareFile_error settings htext parser with ⟨failure, hprepare⟩
    refine .inr ⟨.access fault, failure.message.toList, ?_, hbatch _ hprepare⟩
    rw [outputOf, htext]
    rfl
  | ok text =>
    rcases exists_openFile htext hlimit with ⟨opened, hopen⟩
    have hprepare := prepareFile_of_openFile hopen parser
    rw [htext] at hprepare
    cases hmask : settings.maskText parser (some file)
      (SourceFile.dialectOf file settings.masking.dialect) text with
    | error failure =>
      simp only [Except.mapError, Except.bind, hmask] at hprepare
      refine .inr ⟨failure, failure.message.toList, ?_, hbatch _ hprepare⟩
      simp only [outputOf, htext, Except.mapError, bind, Except.bind, hmask]
    | ok masked =>
      simp only [Except.mapError, Except.bind, hmask] at hprepare
      refine .inl ⟨masked, ?_, hbatch _ hprepare⟩
      simp only [outputOf, htext, Except.mapError, bind, Except.bind, hmask]
      rfl

end CommandLine

/-! ## Where a text is taken -/

namespace Store

variable {store : Store} {location : Location} {path : Path}

/-- Whether neither the places of a store nor the standard output refuse anything for reasons of
their own. -/
structure IsObliging (store : Store) : Prop where
  refuses : ∀ entries location bytes, store.refuses entries location bytes = none
  prints : ∀ text, (store.prints text).2 = true

/-- Only the empty text takes no bytes. -/
theorem eq_nil_of_size_toUTF8 {text : Text} (h : (String.ofList text).toUTF8.size = 0) :
    text = [] := by
  have hsize : (String.ofList text).utf8ByteSize = 0 := h
  simpa using hsize

/-- Where some bytes are not refused, no others are, unless there were none and there is room for
nothing. -/
theorem refusal?_eq_none_of_isObliging (h : store.IsObliging) {bytes : ByteArray}
    (hbytes : store.refusal? location bytes = none) (other : ByteArray) :
    store.refusal? location other = none ∨
      store.content? location = some (.device .full) ∧ bytes.size = 0 := by
  unfold refusal? at hbytes ⊢
  split at hbytes
  · rename_i hfull
    split at hbytes
    · rename_i hsize
      exact .inr ⟨hfull, hsize⟩
    · cases hbytes
  · exact .inl (h.refuses store.entries location other)

/-- Where one text can be written, so can every other, unless the first is empty and there is room
for nothing. -/
theorem writeText_of_writeText (h : store.IsObliging) {text : Text}
    (htext : (store.writeText path text).1 = none) (other : Text) :
    (store.writeText path other).1 = none ∨
      store.find path = .ok (.device .full) ∧ text = [] := by
  rcases exists_target_of_write (Prod.ext htext rfl) with ⟨location, htarget, hrefusal, -⟩
  rcases refusal?_eq_none_of_isObliging h hrefusal (String.ofList other).toUTF8 with
    hother | ⟨hfull, hsize⟩
  · refine .inl ?_
    simp only [writeText, write, htarget, hother]
  · exact .inr ⟨find_of_locate (locate_of_target htarget).1 hfull, eq_nil_of_size_toUTF8 hsize⟩

end Store

/-! ## Runs -/

namespace Masking

/-- Masking in a dialect asks for trees in that dialect only. -/
theorem run_congr {masking : Masking} {parser other : Parser} {dialect : Dialect}
    (h : ∀ request, request.dialect = dialect → other request = parser request)
    (origin : Option Path) (text : Text) :
    masking.run other origin dialect text = masking.run parser origin dialect text := by
  have hstep : ∀ (pass : Pass) (current : Text),
      masking.runPass other ⟨origin, pass, dialect, current⟩ =
        masking.runPass parser ⟨origin, pass, dialect, current⟩ := by
    intro pass current
    rw [runPass, runPass, Parser.tree, Parser.tree, h _ rfl]
  simp only [run, hstep]

end Masking

namespace CommandLine

open Settings

variable {settings : Settings} {parser : Parser} {store : Store} {file : Path}

/-- Whether a text that is put out is taken without a fault where the settings want it to go. -/
def Takes (settings : Settings) (store : Store) (text : Text) : Prop :=
  match settings.output.path with
  | none => (store.prints text).2 = true
  | some path => (store.writeText path text).1 = none

/-- A text is put out with success if all went well before and the text is taken where it goes. -/
theorem status_deliver_eq_zero_iff {text : Text} {succeeded : Bool} :
    (deliver settings store text succeeded).status = 0 ↔
      succeeded = true ∧ Takes settings store text := by
  have hstatus : (if succeeded = true then 0 else 1) = 0 ↔ succeeded = true := by
    cases succeeded <;> decide
  unfold deliver Takes
  cases settings.output.path with
  | none =>
    cases hprints : store.prints text with
    | mk shown taken => cases taken <;> simp [hstatus]
  | some path =>
    cases hwrite : store.writeText path text with
    | mk refusal after => cases refusal <;> simp [hwrite, hstatus]

/-- Where nothing is refused for special reasons, a text is taken if another one is, unless this is
empty and there is room for nothing. -/
theorem takes_of_takes (h : store.IsObliging) {text : Text} (htext : Takes settings store text)
    (other : Text) :
    Takes settings store other ∨
      ∃ path, settings.output.path = some path ∧ store.find path = .ok (.device .full) ∧
        text = [] := by
  unfold Takes at htext ⊢
  cases hpath : settings.output.path with
  | none => exact .inl (h.prints other)
  | some path =>
    rw [hpath] at htext
    rcases Store.writeText_of_writeText h htext other with hother | ⟨hfull, hnil⟩
    · exact .inl hother
    · exact .inr ⟨path, rfl, hfull, hnil⟩

/-- Both commands ask for trees only in the dialect that the name of the file tells, or else the
settings. -/
theorem outputOf_congr {other : Parser} (h : ∀ request,
      request.dialect = SourceFile.dialectOf file settings.masking.dialect →
        other request = parser request) :
    outputOf settings other store (.tokenize [file]) =
        outputOf settings parser store (.tokenize [file]) ∧
      outputOf settings other store (.anonymize file) =
        outputOf settings parser store (.anonymize file) := by
  have hmask : ∀ text,
      settings.maskText other (some file) (SourceFile.dialectOf file settings.masking.dialect)
          text =
        settings.maskText parser (some file) (SourceFile.dialectOf file settings.masking.dialect)
          text :=
    fun text => Masking.run_congr h (some file) (settings.filter.apply text)
  have hprepare : settings.prepareFile other store file =
      settings.prepareFile parser store file := by
    cases hopen : settings.openFile store file with
    | error failure =>
      rw [prepareFile, prepareFile, hopen]
      rfl
    | ok opened =>
      rw [prepareFile_of_openFile hopen, prepareFile_of_openFile hopen]
      simp only [hmask]
  constructor
  · simp only [outputOf, prepareFiles, List.map_cons, List.map_nil, hprepare]
  · simp only [outputOf, hmask]

/-- What the report on a single file tells. -/
structure Tells (settings : Settings) (file : ProcessedFile) (report : Text) : Prop where
  /-- As text the tokens are reported, each with a line break behind it, and they are the tokens of
  the report. -/
  plain : settings.output.format = .text →
    report = Report.tokenLines file.tokens ∧ Token.scan report = file.tokens
  /-- In JSON the file with its tokens is the one outcome on the list. -/
  json : settings.output.format = .json → file.path.text?.isSome = true →
    Report.outcomes? report = some [.processed file]
  /-- If the path of the file is no text, there is no list in JSON, but the reason. -/
  unnamed : settings.output.format = .json → file.path.text? = none →
    report = Report.errorDocument Outcome.noTextReason ∧ Report.outcomes? report = none

/-- How the runs of the two commands on one file agree, with the options of an invocation. -/
structure Agreement (parser : Parser) (store : Store) (invocation : Invocation) (file : Path) :
    Prop where
  /-- One run succeeds exactly if the other does, unless one of the two texts is taken where they go
  and the other is not. -/
  alike : (∀ settings printed, settingsOf store invocation = .ok settings →
      outputOf settings parser store (.anonymize file) = .ok (printed, true) →
        (Takes settings store printed ↔
          Takes settings store (reportOf settings (settings.prepareFiles parser store [file])))) →
    ((runInvocation parser store { invocation with command := .anonymize file }).status = 0 ↔
      (runInvocation parser store { invocation with command := .tokenize [file] }).status = 0)
  /-- If there is a masked text, each run succeeds exactly if its text is taken. -/
  taken : ∀ settings printed, settingsOf store invocation = .ok settings →
    outputOf settings parser store (.anonymize file) = .ok (printed, true) →
      ((runInvocation parser store { invocation with command := .anonymize file }).status = 0 ↔
          Takes settings store printed) ∧
        ((runInvocation parser store { invocation with command := .tokenize [file] }).status = 0 ↔
          Takes settings store (reportOf settings (settings.prepareFiles parser store [file])))
  /-- Where nothing is refused for special reasons, the runs part only if there are no tokens to
  report and the output goes to a device that has room for nothing. -/
  obliged : store.IsObliging →
    ((runInvocation parser store { invocation with command := .anonymize file }).status = 0 →
      (runInvocation parser store { invocation with command := .tokenize [file] }).status = 0) ∧
    ((runInvocation parser store { invocation with command := .tokenize [file] }).status = 0 →
      (runInvocation parser store { invocation with command := .anonymize file }).status = 0 ∨
        ∃ settings path, settingsOf store invocation = .ok settings ∧
          settings.output.path = some path ∧ store.find path = .ok (.device .full) ∧
          reportOf settings (settings.prepareFiles parser store [file]) = [])
  /-- If the text that is put out, the line break at its end included, has an even number of
  delimiters, then the tokens of the file are those of this very text, and the report tells them. -/
  reports : ∀ settings, settingsOf store invocation = .ok settings →
    (runInvocation parser store { invocation with command := .anonymize file }).status = 0 →
      ∃ printed,
        outputOf settings parser store (.anonymize file) = .ok (printed, true) ∧
        runInvocation parser store { invocation with command := .anonymize file } =
          deliver settings store printed true ∧
        (printed.countP Token.isDelimiter % 2 = 0 →
          settings.prepareFiles parser store [file] = [.processed ⟨file,
            SourceFile.dialectOf file settings.masking.dialect, Token.scan printed⟩] ∧
          ∃ report, Tells settings ⟨file, SourceFile.dialectOf file settings.masking.dialect,
              Token.scan printed⟩ report ∧
            runInvocation parser store { invocation with command := .tokenize [file] } =
              deliver settings store report true)
  /-- What a parser answers in other dialects matters to neither run. -/
  dialect : ∀ settings, settingsOf store invocation = .ok settings → ∀ other : Parser,
    (∀ request, request.dialect = SourceFile.dialectOf file settings.masking.dialect →
      other request = parser request) →
    runInvocation other store { invocation with command := .tokenize [file] } =
        runInvocation parser store { invocation with command := .tokenize [file] } ∧
      runInvocation other store { invocation with command := .anonymize file } =
        runInvocation parser store { invocation with command := .anonymize file }

/-- What the report on a file tells whose tokens are those of a text with an even number of
delimiters. -/
theorem tells_reportOf (settings : Settings) (file : Path) (dialect : Dialect) {text : Text}
    (h : text.countP Token.isDelimiter % 2 = 0) :
    Tells settings ⟨file, dialect, Token.scan text⟩
      (reportOf settings [.processed ⟨file, dialect, Token.scan text⟩]) := by
  refine ⟨?_, ?_, ?_⟩
  · intro hformat
    have hreport : reportOf settings [.processed ⟨file, dialect, Token.scan text⟩] =
        Report.tokenLines (Token.scan text) := by
      simp only [reportOf, hformat]
      exact Report.plain_processed _
    rw [hreport]
    exact ⟨rfl, Report.scan_tokenLines (Token.hasShape_of_mem_scan h)⟩
  · intro hformat hpath
    simp only [reportOf, hformat]
    refine Report.outcomes?_json_of_texts fun outcome houtcome => ?_
    rw [List.mem_singleton.mp houtcome]
    exact hpath
  · intro hformat hpath
    have hreport : reportOf settings [.processed ⟨file, dialect, Token.scan text⟩] =
        Report.errorDocument Outcome.noTextReason := by
      simp only [reportOf, hformat]
      exact Report.json_of_noText List.mem_cons_self hpath
    rw [hreport]
    exact ⟨rfl, Report.outcomes?_errorDocument⟩

variable {invocation : Invocation}

/-- A run without settings fails, whatever its command. -/
theorem runInvocation_of_settingsOf_error {failure : Failure}
    (hsettings : settingsOf store invocation = .error failure) (command : Command) :
    runInvocation parser store { invocation with command } = failed store := by
  have hsettings' : settingsOf store { invocation with command } = .error failure := hsettings
  simp only [runInvocation, hsettings']

/-- A run with settings delivers the output of its command, or fails with it. -/
theorem runInvocation_of_settingsOf (hsettings : settingsOf store invocation = .ok settings)
    (command : Command) :
    runInvocation parser store { invocation with command } =
      match outputOf settings parser store command with
      | .ok (text, succeeded) => deliver settings store text succeeded
      | .error _ => failed store := by
  have hsettings' : settingsOf store { invocation with command } = .ok settings := hsettings
  simp only [runInvocation, hsettings']
  cases outputOf settings parser store command <;> rfl

/-- On a file that is not too large both runs deliver what they put out, or neither has anything to
put out with success. -/
theorem runInvocation_alike (parser : Parser)
    (hsettings : settingsOf store invocation = .ok settings)
    (hlimit : ∀ bytes, store.find file = .ok (.file bytes) →
      bytes.size ≤ settings.masking.maxFileSize) :
    (∃ masked,
      outputOf settings parser store (.anonymize file) = .ok (masked ++ ['\n'], true) ∧
        runInvocation parser store { invocation with command := .anonymize file } =
          deliver settings store (masked ++ ['\n']) true ∧
        runInvocation parser store { invocation with command := .tokenize [file] } =
          deliver settings store (reportOf settings (settings.prepareFiles parser store [file]))
            true ∧
        settings.prepareFiles parser store [file] = [.processed ⟨file,
          SourceFile.dialectOf file settings.masking.dialect, Token.scan masked⟩]) ∨
      (∃ failure, outputOf settings parser store (.anonymize file) = .error failure) ∧
        (runInvocation parser store { invocation with command := .anonymize file }).status ≠ 0 ∧
        (runInvocation parser store { invocation with command := .tokenize [file] }).status ≠
          0 := by
  rw [runInvocation_of_settingsOf hsettings, runInvocation_of_settingsOf hsettings]
  rcases outputOf_alike parser hlimit with
    ⟨masked, hmask, hbatch⟩ | ⟨failure, reason, hmask, hbatch⟩
  · refine .inl ⟨masked, hmask, ?_, ?_, hbatch⟩
    · rw [hmask]
    · simp only [outputOf, hbatch]
      rfl
  · refine .inr ⟨⟨failure, hmask⟩, ?_, ?_⟩
    · rw [hmask]
      exact Nat.one_ne_zero
    · simp only [outputOf, hbatch, ne_eq, status_deliver_eq_zero_iff]
      rintro ⟨hprocessed, -⟩
      cases hprocessed

/-- Both runs ask for trees only in the dialect that the name of the file tells, or else the
settings. -/
theorem runInvocation_congr (hsettings : settingsOf store invocation = .ok settings)
    {other : Parser} (h : ∀ request,
      request.dialect = SourceFile.dialectOf file settings.masking.dialect →
        other request = parser request) :
    runInvocation other store { invocation with command := .tokenize [file] } =
        runInvocation parser store { invocation with command := .tokenize [file] } ∧
      runInvocation other store { invocation with command := .anonymize file } =
        runInvocation parser store { invocation with command := .anonymize file } := by
  rcases outputOf_congr h with ⟨htokens, hmask⟩
  constructor
  · rw [runInvocation_of_settingsOf hsettings, runInvocation_of_settingsOf hsettings, htokens]
  · rw [runInvocation_of_settingsOf hsettings, runInvocation_of_settingsOf hsettings, hmask]

/-- Runs that deliver the masked text and the report on its tokens agree. -/
theorem agreement_of_deliver (hsettings : settingsOf store invocation = .ok settings)
    {masked : Text}
    (houtput : outputOf settings parser store (.anonymize file) = .ok (masked ++ ['\n'], true))
    (hmask : runInvocation parser store { invocation with command := .anonymize file } =
      deliver settings store (masked ++ ['\n']) true)
    (htokens : runInvocation parser store { invocation with command := .tokenize [file] } =
      deliver settings store (reportOf settings (settings.prepareFiles parser store [file])) true)
    (hbatch : settings.prepareFiles parser store [file] = [.processed ⟨file,
      SourceFile.dialectOf file settings.masking.dialect, Token.scan masked⟩]) :
    Agreement parser store invocation file := by
  have honly : ∀ settings' printed, settingsOf store invocation = .ok settings' →
      outputOf settings' parser store (.anonymize file) = .ok (printed, true) →
        settings' = settings ∧ printed = masked ++ ['\n'] := by
    intro settings' printed hsettings' hprinted
    rw [hsettings] at hsettings'
    cases hsettings'
    rw [houtput] at hprinted
    cases hprinted
    exact ⟨rfl, rfl⟩
  have hmaskStatus :
      (runInvocation parser store { invocation with command := .anonymize file }).status = 0 ↔
        Takes settings store (masked ++ ['\n']) := by
    rw [hmask, status_deliver_eq_zero_iff]
    exact and_iff_right rfl
  have htokensStatus :
      (runInvocation parser store { invocation with command := .tokenize [file] }).status = 0 ↔
        Takes settings store (reportOf settings (settings.prepareFiles parser store [file])) := by
    rw [htokens, status_deliver_eq_zero_iff]
    exact and_iff_right rfl
  refine ⟨?_, ?_, ?_, ?_, fun _ h _ => runInvocation_congr h⟩
  · intro htakes
    rw [hmaskStatus, htokensStatus]
    exact htakes settings _ hsettings houtput
  · intro settings' printed hsettings' hprinted
    rcases honly settings' printed hsettings' hprinted with ⟨rfl, rfl⟩
    exact ⟨hmaskStatus, htokensStatus⟩
  · intro hobliging
    rw [hmaskStatus, htokensStatus]
    constructor
    · intro htakes
      rcases takes_of_takes hobliging htakes _ with hother | ⟨path, -, -, hnil⟩
      · exact hother
      · cases (List.append_eq_nil_iff.mp hnil).2
    · intro htakes
      rcases takes_of_takes hobliging htakes (masked ++ ['\n']) with
        hother | ⟨path, hpath, hfull, hnil⟩
      · exact .inl hother
      · exact .inr ⟨settings, path, hsettings, hpath, hfull, hnil⟩
  · intro settings' hsettings' _
    rw [hsettings] at hsettings'
    cases hsettings'
    refine ⟨masked ++ ['\n'], houtput, hmask, ?_⟩
    intro heven
    rw [← Token.scan_concat_lineBreak heven] at hbatch
    rw [htokens, hbatch]
    exact ⟨rfl, _, tells_reportOf settings file _ heven, rfl⟩

/-- Runs that put nothing out with success agree. -/
theorem agreement_of_status_ne_zero
    (hnone : ∀ settings printed, settingsOf store invocation = .ok settings →
      outputOf settings parser store (.anonymize file) ≠ .ok (printed, true))
    (hmask :
      (runInvocation parser store { invocation with command := .anonymize file }).status ≠ 0)
    (htokens :
      (runInvocation parser store { invocation with command := .tokenize [file] }).status ≠ 0) :
    Agreement parser store invocation file where
  alike := fun _ => ⟨fun h => absurd h hmask, fun h => absurd h htokens⟩
  taken := fun settings printed hsettings h => absurd h (hnone settings printed hsettings)
  obliged := fun _ => ⟨fun h => absurd h hmask, fun h => absurd h htokens⟩
  reports := fun _ _ h => absurd h hmask
  dialect := fun _ hsettings _ => runInvocation_congr hsettings

/-- On a file that is not too large the runs of the two commands agree. -/
theorem agreement_runInvocation (parser : Parser) (store : Store) (invocation : Invocation)
    (file : Path)
    (hlimit : ∀ settings bytes, settingsOf store invocation = .ok settings →
      store.find file = .ok (.file bytes) → bytes.size ≤ settings.masking.maxFileSize) :
    Agreement parser store invocation file := by
  cases hsettings : settingsOf store invocation with
  | error failure =>
    have hstatus : ∀ command,
        (runInvocation parser store { invocation with command }).status ≠ 0 := by
      intro command
      rw [runInvocation_of_settingsOf_error hsettings]
      exact Nat.one_ne_zero
    refine agreement_of_status_ne_zero ?_ (hstatus _) (hstatus _)
    intro settings printed h
    rw [hsettings] at h
    cases h
  | ok settings =>
    rcases runInvocation_alike parser hsettings (hlimit settings · hsettings) with
      ⟨masked, houtput, hmask, htokens, hbatch⟩ | ⟨⟨failure, houtput⟩, hmask, htokens⟩
    · exact agreement_of_deliver hsettings houtput hmask htokens hbatch
    · refine agreement_of_status_ne_zero ?_ hmask htokens
      intro settings' printed h hprinted
      rw [hsettings] at h
      cases h
      rw [houtput] at hprinted
      cases hprinted

/-! ## Examples -/

/-- A file is no larger than the settings allow, if the one that is found is not. -/
theorem size_le_of_find {bytes : ByteArray} {changes : List Settings.Change} {command : Command}
    (hfile : store.find file = .ok (.file bytes))
    (hsize : bytes.size ≤ (({} : Settings).changeAll changes).masking.maxFileSize)
    (settings : Settings) (found : ByteArray)
    (hsettings : settingsOf store ⟨none, changes, command⟩ = .ok settings)
    (hfind : store.find file = .ok (.file found)) :
    found.size ≤ settings.masking.maxFileSize := by
  rw [hfile] at hfind
  cases hfind
  cases hsettings
  exact hsize

/-- A store with one source file in its working directory. -/
def sourceStore (name : Bytes) (text : Text) : Store :=
  (Store.startingAt [.ofWord "work"]).put [.ofWord "work", name] (.file (String.ofList text).toUTF8)

/-- A name that tells that a file has the other dialect. -/
def tsxName : Path := .ofWord "a.tsx"

/-- The store with the text of a class with a field. -/
def fieldStore : Store := sourceStore tsxName Masking.fieldClassText

/-- The parser that knows the tree of that text. -/
def fieldParser : Parser := .ofTrees [Masking.fieldClass]

/-- Options to mask only names of classes and fields. -/
def classOptions : Invocation := ⟨none, [.functionScope false], .tokenize [tsxName]⟩

/-- The runs on a class with a field agree: both succeed, and the tokens reported are those of the
masked text with the line break behind it. -/
theorem agreement_runInvocation_fieldClass :
    (∀ settings bytes, settingsOf fieldStore classOptions = .ok settings →
        fieldStore.find tsxName = .ok (.file bytes) →
          bytes.size ≤ settings.masking.maxFileSize) ∧
      Agreement fieldParser fieldStore classOptions tsxName ∧
      (runInvocation fieldParser fieldStore
          { classOptions with command := .anonymize tsxName }).stdout =
        "/*é*/class _class_ {_property0_}\n".toList ∧
      (runInvocation fieldParser fieldStore
          { classOptions with command := .tokenize [tsxName] }).status = 0 ∧
      (runInvocation fieldParser fieldStore
          { classOptions with command := .tokenize [tsxName] }).stdout =
        Report.tokenLines (Token.scan "/*é*/class _class_ {_property0_}\n".toList) := by
  have hlimit : ∀ settings bytes, settingsOf fieldStore classOptions = .ok settings →
      fieldStore.find tsxName = .ok (.file bytes) →
        bytes.size ≤ settings.masking.maxFileSize :=
    size_le_of_find rfl (by decide +kernel)
  have hagree := agreement_runInvocation fieldParser fieldStore classOptions _ hlimit
  have hstatus : (runInvocation fieldParser fieldStore
      { classOptions with command := .anonymize tsxName }).status = 0 := by
    decide +kernel
  have hstdout : (runInvocation fieldParser fieldStore
      { classOptions with command := .anonymize tsxName }).stdout =
        "/*é*/class _class_ {_property0_}\n".toList := by
    decide +kernel
  have hobliging : fieldStore.IsObliging := ⟨fun _ _ _ => rfl, fun _ => rfl⟩
  refine ⟨hlimit, hagree, hstdout, (hagree.obliged hobliging).1 hstatus, ?_⟩
  rcases hagree.reports _ rfl hstatus with ⟨printed, -, hprinted, hreport⟩
  have hsame : printed = "/*é*/class _class_ {_property0_}\n".toList := by
    rw [← hstdout, hprinted]
    rfl
  subst hsame
  rcases hreport (by decide) with ⟨-, report, htells, htokens⟩
  rw [htokens, ← (htells.plain rfl).1]
  rfl

/-- Options with which nothing is masked and all goes to a device without room. -/
def fullOptions : Invocation :=
  ⟨none, [.classScope false, .functionScope false, .outputPath (.ofWord "/dev/full")],
    .tokenize [tsxName]⟩

/-- A name that is no text. -/
def strayName : Path := [0xFF]

/-- Options to mask nothing and to report in JSON. -/
def jsonOptions : Invocation :=
  ⟨none, [.classScope false, .functionScope false, .format .json], .tokenize [strayName]⟩

/-- An empty file has no tokens, and the report on it can go to a device without room.  Its masked
text cannot, as a line break stands behind it.  And if the name of a file is no text, both runs
succeed, but the JSON report has the reason in place of the token. -/
theorem not_alike_full_stray :
    ((∀ settings bytes, settingsOf (sourceStore tsxName []) fullOptions = .ok settings →
        (sourceStore tsxName []).find tsxName = .ok (.file bytes) →
          bytes.size ≤ settings.masking.maxFileSize) ∧
      ¬ ((runInvocation (.ofTrees []) (sourceStore tsxName [])
            { fullOptions with command := .tokenize [tsxName] }).status = 0 ↔
          (runInvocation (.ofTrees []) (sourceStore tsxName [])
            { fullOptions with command := .anonymize tsxName }).status = 0)) ∧
      (∀ settings bytes, settingsOf (sourceStore strayName ['a']) jsonOptions = .ok settings →
        (sourceStore strayName ['a']).find strayName = .ok (.file bytes) →
          bytes.size ≤ settings.masking.maxFileSize) ∧
      (runInvocation (.ofTrees []) (sourceStore strayName ['a'])
          { jsonOptions with command := .anonymize strayName }).status = 0 ∧
      (runInvocation (.ofTrees []) (sourceStore strayName ['a'])
          { jsonOptions with command := .anonymize strayName }).stdout = "a\n".toList ∧
      (runInvocation (.ofTrees []) (sourceStore strayName ['a'])
          { jsonOptions with command := .tokenize [strayName] }).status = 0 ∧
      (runInvocation (.ofTrees []) (sourceStore strayName ['a'])
          { jsonOptions with command := .tokenize [strayName] }).stdout =
        "\x7b\"error\": \"path contains invalid UTF-8 characters\"\x7d".toList ∧
      Token.scan "a\n".toList = [⟨['a']⟩] :=
  ⟨⟨size_le_of_find rfl (by decide +kernel), by decide +kernel⟩,
    size_le_of_find rfl (by decide +kernel), by decide +kernel, by decide +kernel,
    by decide +kernel, by decide +kernel, by decide +kernel⟩

end CommandLine

end SourceMask
