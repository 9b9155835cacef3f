/-
How a run ends. It passes with warnings at most, or it fails for a file or settings that cannot be used,
for a manifest that is refused, or for findings with an error among them. The exit code says which of the
two it was. The reports say everything there is to say, and there is at least one if the run fails.
-/
import Interconnect.CommandLine
import Interconnect.Proofs.Manifest.Spans

namespace Interconnect

/-! ## Reports -/

/-- The pointer shows where the label stands, from its start up to its end. -/
structure Label.Shown (l : Label) (p : Pointer) : Prop where
  offset : p.offset = l.span.start
  stop : p.offset + p.length = l.span.stop
  message : p.message = l.message
  primary : p.primary = l.primary

/-- The report says what the diagnostic does, and points to its labels if it has any. -/
structure Diagnostic.Shown (d : Diagnostic) (r : Report) : Prop where
  message : r.message = d.message
  code : r.code = d.code.map Code.text
  severity : r.severity = some d.severity
  help : r.help = d.help
  pointers : (d.labels = [] ∧ r.pointers = none) ∨
    ∃ ps, d.labels ≠ [] ∧ r.pointers = some ps ∧ List.Forall₂ Label.Shown d.labels ps

theorem Label.shown_pointer {l : Label} (h : l.span.Ordered) : l.Shown l.pointer :=
  ⟨rfl, h.start_add_length, rfl, rfl⟩

theorem Diagnostic.shown_report {d : Diagnostic} (h : d.Ordered) : d.Shown d.report := by
  refine ⟨rfl, rfl, rfl, rfl, ?_⟩
  unfold report
  by_cases hl : d.labels = []
  · exact .inl ⟨hl, by simp [hl]⟩
  · refine .inr ⟨d.labels.map Label.pointer, hl, by simp [hl], ?_⟩
    exact List.forall₂_map_right_iff.2 (List.forall₂_same.2 fun l hmem => Label.shown_pointer (h l hmem))

/-- There is one report for each diagnostic, in the same order. -/
theorem Diagnostic.shown_reports {ds : List Diagnostic} (h : ∀ d ∈ ds, d.Ordered) :
    List.Forall₂ Diagnostic.Shown ds (ds.map Diagnostic.report) :=
  List.forall₂_map_right_iff.2 (List.forall₂_same.2 fun d hd => shown_report (h d hd))

/-! ## Manifests -/

theorem Model.ordered_findings {m : Model} (h : ∀ s ∈ m.spans, s.Ordered) (levels : Levels) :
    ∀ f ∈ m.findings levels, f.Ordered :=
  fun _ hf l hl => h _ (finding_mem_spans (finds_findings hf) l hl)

/-- Warnings only. -/
def AreWarnings (ds : List Diagnostic) : Prop := ∀ d ∈ ds, d.severity = .warning ∧ d.Ordered

theorem warnings_of_verify {levels : Levels} {text : String} {ws : List Diagnostic}
    (h : verify levels text = .ok ws) : AreWarnings ws := by
  unfold verify at h
  cases hm : Manifest.load text with
  | error failure =>
    rw [hm] at h
    cases h
  | ok m =>
    simp only [hm] at h
    cases hc : m.check levels with
    | error ds =>
      rw [hc] at h
      cases h
    | ok ws' =>
      rw [hc] at h
      cases h
      rw [m.check_eq_verdict, Diagnostic.verdict_eq_ok_iff] at hc
      obtain ⟨rfl, hwarn⟩ := hc
      have hordered := Model.ordered_findings (Manifest.ordered_of_load hm) levels
      exact fun d hd => ⟨Diagnostic.isError_eq_false_iff.1 (hwarn d hd), hordered d hd⟩

/-- Only the text itself is said to be no document. -/
theorem eq_of_load_notToml {text text' : String} (h : Manifest.load text = .error (.notToml text')) :
    text' = text := by
  unfold Manifest.load Manifest.declarations at h
  cases hdoc : Toml.document? text with
  | none =>
    rw [hdoc] at h
    cases h
    rfl
  | some entries =>
    rw [hdoc] at h
    -- a document can only be refused
    cases hread : Manifest.Declarations.read entries with
    | error m =>
      simp only [hread] at h
      cases h
    | ok d =>
      simp only [hread] at h
      cases hm : d.model <;> rw [hm] at h <;> cases h

theorem eq_of_read_notToml {text text' : String} (h : Settings.read text = .error (.notToml text')) :
    text' = text := by
  unfold Settings.read at h
  split at h
  · cases h
    rfl
  · split at h <;> cases h

/-- What is true of a failure when a manifest is run: there are only errors if the manifest is refused,
and an error at least if there are findings. A text that is called no document stands in the file. -/
def Failure.Sound (files : Files) (input : String) : Failure → Prop
  | manifest (.notToml text) => files.readText input = .ok text
  | manifest (.refused ds) => ds ≠ [] ∧ ∀ d ∈ ds, Manifest.IsRefusal d
  | check ds => (∃ d ∈ ds, d.severity = .error) ∧ ∀ d ∈ ds, d.Ordered
  | badSettings path (.notToml text) => files.readText path = .ok text
  | _ => True

variable {files : Files} {user given : Option String} {input : String}

theorem sound_of_verify {levels : Levels} {text : String} {failure : Failure}
    (ht : files.readText input = .ok text) (h : verify levels text = .error failure) :
    failure.Sound files input := by
  unfold verify at h
  cases hm : Manifest.load text with
  | error refused =>
    rw [hm] at h
    cases h
    cases refused with
    | notToml text' =>
      rw [eq_of_load_notToml hm]
      exact ht
    | refused ds => exact Manifest.refusals_of_load hm
  | ok m =>
    simp only [hm] at h
    cases hc : m.check levels with
    | ok ws =>
      rw [hc] at h
      cases h
    | error ds =>
      rw [hc] at h
      cases h
      rw [m.check_eq_verdict, Diagnostic.verdict_eq_error_iff] at hc
      obtain ⟨rfl, d, hd, herror⟩ := hc
      exact ⟨⟨d, hd, Diagnostic.isError_iff.1 herror⟩,
        Model.ordered_findings (Manifest.ordered_of_load hm) levels⟩

/-! ## Runs -/

/-- Settings that cannot be used are no matter of diagnostics. -/
theorem sound_of_find {failure : Failure} (h : Settings.find files given user = .error failure) :
    failure.Sound files input := by
  unfold Settings.find Settings.readFile at h
  -- without a file nothing fails; with one, it can be missing, unreadable or no settings
  split at h
  · split at h
    · cases h
      trivial
    · split at h
      · cases h
        trivial
      · rename_i text ht
        split at h <;> cases h
        rename_i fault hread
        cases fault with
        | notToml text' =>
          rw [eq_of_read_notToml hread]
          exact ht
        | misfit m => trivial
  · cases h

theorem warnings_of_run {passed : Passed} (h : run files user given input = .ok passed) :
    AreWarnings passed.warnings := by
  unfold run at h
  split at h
  · cases h
  · split at h
    · cases h
    · split at h
      · cases h
      · rename_i hv
        cases h
        exact warnings_of_verify hv

theorem sound_of_run {failure : Failure} (h : run files user given input = .error failure) :
    failure.Sound files input := by
  unfold run at h
  split at h
  · rename_i hs
    cases h
    exact sound_of_find hs
  · split at h
    · cases h
      trivial
    · rename_i ht
      split at h
      · rename_i hv
        cases h
        exact sound_of_verify ht hv
      · cases h

/-- What the reports of a failure are. There is one for each diagnostic of a manifest that is refused,
which are errors, or of a check, where one is an error; and a single one for anything else, in the parser's
words if the text of a file is no document. -/
def Failure.ToldBy (words : Toml.Wording) (files : Files) (input : String) (f : Failure)
    (reports : List Report) : Prop :=
  match f with
  | manifest (.refused ds) => List.Forall₂ Diagnostic.Shown ds reports ∧ ds ≠ [] ∧
      ∀ d ∈ ds, d.severity = .error
  | check ds => List.Forall₂ Diagnostic.Shown ds reports ∧ ∃ d ∈ ds, d.severity = .error
  | manifest (.notToml text) => files.readText input = .ok text ∧ ∃ r, reports = [r] ∧
      (Manifest.syntaxDiagnostic (words text)).Shown r ∧ r.severity = some .error
  | badSettings path (.notToml text) => files.readText path = .ok text ∧ ∃ r, reports = [r] ∧
      r.message = "I/O error: Failed to parse TOML configuration " ++ path ++ ": " ++ (words text).message
  | badSettings path (.misfit m) => ∃ r, reports = [r] ∧
      r.message = "I/O error: Failed to parse TOML configuration " ++ path ++ ": " ++ m.cause.message
  | missingSettings path => ∃ r, reports = [r] ∧
      r.message = "I/O error: Missing configuration file: " ++ path
  | unreadable fault => ∃ r, reports = [r] ∧ r.message = "I/O error: " ++ fault.message

theorem Failure.Sound.toldBy_reports {f : Failure} (h : f.Sound files input) (words : Toml.Wording) :
    f.ToldBy words files input (f.reports words) := by
  cases f with
  | unreadable fault => exact ⟨_, rfl, rfl⟩
  | missingSettings path => exact ⟨_, rfl, rfl⟩
  | badSettings path fault =>
    cases fault with
    | notToml text => exact ⟨h, _, rfl, rfl⟩
    | misfit m => exact ⟨_, rfl, rfl⟩
  | manifest failure =>
    cases failure with
    | notToml text =>
      refine ⟨h, _, rfl, Diagnostic.shown_report ?_, rfl⟩
      exact (Manifest.invalidDiagnostic_isRefusal _ _).ordered
    | refused ds =>
      exact ⟨Diagnostic.shown_reports fun d hd => (h.2 d hd).ordered, h.1, fun d hd => (h.2 d hd).error⟩
  | check ds => exact ⟨Diagnostic.shown_reports h.2, h.1⟩

/-- Whatever a failure is, it has something to report. -/
theorem Failure.Sound.reports_ne_nil {f : Failure} (h : f.Sound files input) (words : Toml.Wording) :
    f.reports words ≠ [] := by
  cases f with
  | manifest failure =>
    cases failure with
    | notToml text => exact List.cons_ne_nil _ _
    | refused ds => exact mt List.map_eq_nil_iff.1 h.1
  | check ds =>
    obtain ⟨⟨d, hd, -⟩, -⟩ := h
    exact mt List.map_eq_nil_iff.1 (List.ne_nil_of_mem hd)
  | unreadable fault => exact List.cons_ne_nil _ _
  | missingSettings path => exact List.cons_ne_nil _ _
  | badSettings path fault => exact List.cons_ne_nil _ _

namespace CommandLine

/-- A request is run, and whatever the log level is, the exit code and the reports are those of the
run. -/
theorem execute_of_parse (words : Toml.Wording) (files : Files) (user : Option String)
    {arguments : List String} {request : Request} (h : parse arguments = .ok request) :
    (execute words files user arguments).reports =
        outcomeReports words (run files user request.config request.input) ∧
      ((execute words files user arguments).exit = 0 ↔
        ∃ passed, run files user request.config request.input = .ok passed) ∧
      ((execute words files user arguments).exit = 1 ↔
        ∃ failure, run files user request.config request.input = .error failure) := by
  simp only [execute, h]
  cases run files user request.config request.input <;> simp

/-- The program exits with 0 exactly if the run passes, and then it reports warnings only, and with 1
exactly if the run fails, and then it reports why, whatever the parser's words are. -/
theorem execute_outcome (words : Toml.Wording) (files : Files) (user : Option String)
    {arguments : List String} {request : Request} (h : parse arguments = .ok request) :
    ((execute words files user arguments).exit = 0 ↔
        ∃ passed, run files user request.config request.input = .ok passed) ∧
      ((execute words files user arguments).exit = 1 ↔
        ∃ failure, run files user request.config request.input = .error failure) ∧
      (∀ passed, run files user request.config request.input = .ok passed →
        (∀ w ∈ passed.warnings, w.severity = .warning) ∧
          List.Forall₂ Diagnostic.Shown passed.warnings (execute words files user arguments).reports) ∧
      ∀ failure, run files user request.config request.input = .error failure →
        (execute words files user arguments).reports ≠ [] ∧
          failure.ToldBy words files request.input (execute words files user arguments).reports := by
  obtain ⟨hreports, hpass, hfail⟩ := execute_of_parse words files user h
  refine ⟨hpass, hfail, fun passed hrun => ?_, fun failure hrun => ?_⟩
  · have hwarn := warnings_of_run hrun
    rw [hreports, hrun]
    exact ⟨fun w hw => (hwarn w hw).1, Diagnostic.shown_reports fun w hw => (hwarn w hw).2⟩
  · have hsound := sound_of_run hrun
    rw [hreports, hrun]
    exact ⟨hsound.reports_ne_nil words, hsound.toldBy_reports words⟩

/-- A manifest with a constant that leads nowhere, one with a flaw, a text that is no document, and
settings under which the constant is warned about. -/
def deskFiles : Files := (FileTree.ofPaths
  [("stray", .file "component=[\x7bname='a',connect=[\x7bconstant=1,target='z'\x7d]\x7d]".toUTF8),
    ("flawed", .file "component=[\x7bname='a.b'\x7d]".toUTF8), ("unset", .file "name".toUTF8),
    ("lenient", .file "check=\x7bunresolved_endpoints='warning'\x7d".toUTF8)]).files

/-- The words for a text that is one key and nothing else, with the place where the key ends. -/
def unsetKey : Toml.Wording := fun text =>
  { message := "key with no value, expected `=`", span := some ⟨text.utf8ByteSize, text.utf8ByteSize⟩ }

theorem execute_outcome_desk :
    (∃ ds, run deskFiles none none "stray" = .error (.check ds) ∧
      (execute unsetKey deskFiles none ["--log-level=loud", "stray"]).exit = 1 ∧
      List.Forall₂ Diagnostic.Shown ds
        (execute unsetKey deskFiles none ["--log-level=loud", "stray"]).reports ∧
      ∃ d ∈ ds, d.severity = .error) ∧
    (∃ w passed, run deskFiles none (some "lenient") "stray" = .ok passed ∧ passed.warnings = [w] ∧
      (execute unsetKey deskFiles none ["-c", "lenient", "stray"]).exit = 0 ∧ w.severity = .warning) ∧
    (∃ d r, run deskFiles none none "flawed" = .error (.manifest (.refused [d])) ∧
      (execute unsetKey deskFiles none ["flawed"]).exit = 1 ∧
      (execute unsetKey deskFiles none ["flawed"]).reports = [r] ∧ d.Shown r ∧ d.severity = .error ∧
      r.pointers = some [⟨17, 5, "declared here", true⟩]) ∧
    (∃ r, run deskFiles none none "unset" = .error (.manifest (.notToml "name")) ∧
      (execute unsetKey deskFiles none ["unset"]).exit = 1 ∧
      (execute unsetKey deskFiles none ["unset"]).reports = [r] ∧ r.severity = some .error ∧
      r.message = "invalid manifest: key with no value, expected `=`" ∧
      r.pointers = some [⟨4, 0, "here", true⟩]) ∧
    (∃ r, run deskFiles none (some "unset") "stray" =
        .error (.badSettings "unset" (.notToml "name")) ∧
      (execute unsetKey deskFiles none ["-c", "unset", "stray"]).exit = 1 ∧
      (execute unsetKey deskFiles none ["-c", "unset", "stray"]).reports = [r] ∧
      r.message = "I/O error: Failed to parse TOML configuration unset: " ++
        "key with no value, expected `=`") ∧
    ∃ r, run deskFiles none none "absent" = .error (.unreadable .notFound) ∧
      (execute unsetKey deskFiles none ["absent"]).exit = 1 ∧
      (execute unsetKey deskFiles none ["absent"]).reports = [r] ∧
      r.message = "I/O error: No such file or directory (os error 2)" := by
  refine ⟨?_, ?_, ?_, ?_, ?_, ?_⟩
  · have hchecked : (match run deskFiles none none "stray" with
        | .error (.check _) => true
        | _ => false) = true := by decide +kernel
    have hparse : parse ["--log-level=loud", "stray"] = .ok ⟨"stray", none, "loud"⟩ := rfl
    obtain ⟨-, hexit, -, htold⟩ := execute_outcome unsetKey deskFiles none hparse
    cases hrun : run deskFiles none none "stray" with
    | ok passed =>
      rw [hrun] at hchecked
      cases hchecked
    | error failure =>
      rw [hrun] at hchecked
      cases failure with
      | check ds => exact ⟨ds, rfl, hexit.2 ⟨_, hrun⟩, (htold _ hrun).2⟩
      | _ => cases hchecked
  · have hpasses : (run deskFiles none (some "lenient") "stray").toOption.map
        (fun passed => passed.warnings.length) = some 1 := by decide +kernel
    have hparse : parse ["-c", "lenient", "stray"] = .ok ⟨"stray", some "lenient", "info"⟩ := rfl
    obtain ⟨hexit, -, hwarn, -⟩ := execute_outcome unsetKey deskFiles none hparse
    obtain ⟨passed, hrun, hlength⟩ := Manifest.exists_ok hpasses
    obtain ⟨w, hw⟩ := List.length_eq_one_iff.1 hlength
    refine ⟨w, passed, hrun, hw, hexit.2 ⟨_, hrun⟩, (hwarn _ hrun).1 w ?_⟩
    rw [hw]
    exact List.mem_singleton_self w
  · have hrun : run deskFiles none none "flawed" = .error (.manifest (.refused
        [(Manifest.Flaw.dottedName .component "a.b" ⟨17, 22⟩).diagnostic])) := by decide +kernel
    have hparse : parse ["flawed"] = .ok ⟨"flawed", none, "info"⟩ := rfl
    obtain ⟨-, hexit, -, htold⟩ := execute_outcome unsetKey deskFiles none hparse
    obtain ⟨-, hshown, -, herrors⟩ := htold _ hrun
    obtain ⟨r, rest, hr, hnil, hreports⟩ := List.forall₂_cons_left_iff.1 hshown
    cases hnil
    have hpointers : (execute unsetKey deskFiles none ["flawed"]).reports.map Report.pointers =
        [some [⟨17, 5, "declared here", true⟩]] := by decide +kernel
    rw [hreports] at hpointers
    exact ⟨_, r, hrun, hexit.2 ⟨_, hrun⟩, hreports, hr,
      herrors _ (List.mem_singleton_self _), (List.cons.inj hpointers).1⟩
  · have hrun : run deskFiles none none "unset" = .error (.manifest (.notToml "name")) := by
      decide +kernel
    have hparse : parse ["unset"] = .ok ⟨"unset", none, "info"⟩ := rfl
    obtain ⟨-, hexit, -, htold⟩ := execute_outcome unsetKey deskFiles none hparse
    obtain ⟨-, -, r, hreports, hshown, herror⟩ := htold _ hrun
    have hpointers : (execute unsetKey deskFiles none ["unset"]).reports.map Report.pointers =
        [some [⟨4, 0, "here", true⟩]] := by decide +kernel
    rw [hreports] at hpointers
    refine ⟨r, hrun, hexit.2 ⟨_, hrun⟩, hreports, herror, ?_, (List.cons.inj hpointers).1⟩
    rw [hshown.message]
    decide +kernel
  · have hrun : run deskFiles none (some "unset") "stray" =
        .error (.badSettings "unset" (.notToml "name")) := by decide +kernel
    have hparse : parse ["-c", "unset", "stray"] = .ok ⟨"stray", some "unset", "info"⟩ := rfl
    obtain ⟨-, hexit, -, htold⟩ := execute_outcome unsetKey deskFiles none hparse
    obtain ⟨-, -, r, hreports, hmessage⟩ := htold _ hrun
    exact ⟨r, hrun, hexit.2 ⟨_, hrun⟩, hreports, hmessage⟩
  · have hrun : run deskFiles none none "absent" = .error (.unreadable .notFound) := by decide +kernel
    have hparse : parse ["absent"] = .ok ⟨"absent", none, "info"⟩ := rfl
    obtain ⟨-, hexit, -, htold⟩ := execute_outcome unsetKey deskFiles none hparse
    obtain ⟨-, r, hreports, hmessage⟩ := htold _ hrun
    exact ⟨r, hrun, hexit.2 ⟨_, hrun⟩, hreports, hmessage⟩

end CommandLine

end Interconnect
