/-
The settings that a run goes by. They are taken from one file: the given one, or else the local one or
the user's own, whichever is there first; without any, nothing is set. A file that cannot be used fails
the run and no other is tried. Otherwise the run ends as the check of the manifest does under these
settings, and whatever stands at later places does not matter.
-/
import Interconnect.Run
import Mathlib.Control.Monad.Basic
import Mathlib.Data.Option.Basic

namespace Interconnect

/-- The first of the paths that leads anywhere, with what stands there. -/
def Files.first? (files : Files) (paths : List String) : Option (String × Entry) :=
  paths.findSome? fun path => (files path).toOption.map (path, ·)

namespace Settings

/-- The places where settings can stand, in their order: only the given file, if one is given. -/
def places (given user : Option String) : List String :=
  match given with
  | some path => [path]
  | none => localPath :: user.toList

/-- The file that settings are taken from, if there is one. A given file is, whether it is there or
not. -/
inductive Origin (files : Files) (user : Option String) : Option String → Option String → Prop
  | given (path : String) : Origin files user (some path) (some path)
  | nearby (h : files.has localPath = true) : Origin files user none (some localPath)
  | own {path : String} (hlocal : files.has localPath = false) (hu : user = some path)
    (h : files.has path = true) : Origin files user none (some path)
  | nowhere (hlocal : files.has localPath = false)
    (hu : ∀ path, user = some path → files.has path = false) : Origin files user none none

/-- What a file gives: settings, or the reason why it cannot be used for settings. -/
inductive Gives (files : Files) (path : String) : Except Failure Levels → Prop
  | missing (h : files.has path = false) : Gives files path (.error (.missingSettings path))
  | unreadable {fault : ReadFault} (h : files.has path = true)
    (ht : files.readText path = .error fault) : Gives files path (.error (.unreadable fault))
  | invalid {text : String} {fault : Fault} (ht : files.readText path = .ok text)
    (hs : read text = .error fault) : Gives files path (.error (.badSettings path fault))
  | valid {text : String} {levels : Levels} (ht : files.readText path = .ok text)
    (hs : read text = .ok levels) : Gives files path (.ok levels)

/-- What a run has for settings, or why it fails for them. -/
inductive Found (files : Files) (user given : Option String) : Except Failure Levels → Prop
  | file {path : String} {outcome : Except Failure Levels} (ho : Origin files user given (some path))
    (hg : Gives files path outcome) : Found files user given outcome
  | unset (ho : Origin files user given none) : Found files user given (.ok {})

variable {files files' : Files} {user given : Option String} {path : String}

/-! ## Finding settings -/

theorem origin_select (files : Files) (user given : Option String) :
    Origin files user given (select files given user) := by
  unfold select
  cases given with
  | some path => exact .given path
  | none =>
    cases hlocal : files.has localPath with
    | true =>
      rw [Option.filter_some, if_pos hlocal]
      exact .nearby hlocal
    | false =>
      rw [Option.filter_some, if_neg (Bool.eq_false_iff.1 hlocal), Option.none_or]
      cases user with
      | none => exact .nowhere hlocal (by rintro _ ⟨⟩)
      | some path =>
        cases hp : files.has path with
        | true =>
          rw [Option.filter_some, if_pos hp]
          exact .own hlocal rfl hp
        | false =>
          rw [Option.filter_some, if_neg (Bool.eq_false_iff.1 hp)]
          exact .nowhere hlocal fun _ h => Option.some.inj h ▸ hp

/-- There is one file at most that settings are taken from. -/
theorem origin_iff {source : Option String} :
    Origin files user given source ↔ select files given user = source := by
  constructor
  · rintro (_ | h | ⟨hlocal, rfl, h⟩ | ⟨hlocal, hu⟩)
    · rfl
    · simp [select, h]
    · simp [select, hlocal, h]
    · cases user with
      | none => simp [select, hlocal]
      | some path => simp [select, hlocal, hu path rfl]
  · rintro rfl
    exact origin_select files user given

theorem gives_iff {outcome : Except Failure Levels} :
    Gives files path outcome ↔ readFile files path = outcome := by
  constructor
  · rintro (h | ⟨h, ht⟩ | ⟨ht, hs⟩ | ⟨ht, hs⟩)
    · simp [readFile, h]
    · simp [readFile, h, ht]
    · simp [readFile, Files.has_of_readText ht, ht, hs]
    · simp [readFile, Files.has_of_readText ht, ht, hs]
  · rintro rfl
    unfold readFile
    cases h : files.has path with
    | false => exact .missing h
    | true =>
      simp only [Bool.not_true, Bool.false_eq_true, if_false]
      cases ht : files.readText path with
      | error fault => exact .unreadable h ht
      | ok text =>
        dsimp only
        cases hs : read text with
        | error fault => exact .invalid ht hs
        | ok levels => exact .valid ht hs

/-- What is found is decided, and it is what the run goes by. -/
theorem found_iff {outcome : Except Failure Levels} :
    Found files user given outcome ↔ find files given user = outcome := by
  unfold find
  constructor
  · rintro (⟨ho, hg⟩ | ho)
    · rw [origin_iff.1 ho]
      exact gives_iff.1 hg
    · rw [origin_iff.1 ho]
  · rintro rfl
    cases hs : select files given user with
    | none => exact .unset (origin_iff.2 hs)
    | some path => exact .file (origin_iff.2 hs) (gives_iff.2 rfl)

/-! ## Places that do not matter -/

/-- For settings it is all one why a path leads nowhere. -/
theorem readFile_congr (h : (files' path).toOption = (files path).toOption) :
    readFile files' path = readFile files path := by
  unfold readFile Files.has Files.readText
  cases hp : files path with
  | error fault =>
    cases hp' : files' path with
    | error fault' => rfl
    | ok entry => simp [hp, hp', Except.toOption] at h
  | ok entry =>
    cases hp' : files' path with
    | error fault' => simp [hp, hp', Except.toOption] at h
    | ok entry' =>
      rw [hp, hp'] at h
      cases h
      rfl

theorem toOption_of_first? {entry : Entry} {paths : List String}
    (h : files.first? paths = some (path, entry)) : (files path).toOption = some entry := by
  obtain ⟨p, -, hp⟩ := List.exists_of_findSome?_eq_some h
  obtain ⟨e, he, hpair⟩ := Option.map_eq_some_iff.1 hp
  cases hpair
  exact he

theorem first?_singleton (files : Files) (path : String) :
    files.first? [path] = (files path).toOption.map (path, ·) := by
  unfold Files.first?
  cases h : (files path).toOption <;> simp [h]

theorem has_eq_isSome (files : Files) (path : String) :
    files.has path = (files path).toOption.isSome := by
  unfold Files.has
  cases files path <;> rfl

/-- Unless a file is given, settings are taken from the first place where anything stands. -/
theorem select_none (files : Files) (user : Option String) :
    select files none user = (files.first? (places none user)).map Prod.fst := by
  unfold select places Files.first?
  cases hl : (files localPath).toOption with
  | some entry => simp [has_eq_isSome, hl]
  | none =>
    cases user with
    | none => simp [has_eq_isSome, hl]
    | some path => cases hp : (files path).toOption <;> simp [has_eq_isSome, hl, hp]

/-- Settings only depend on the first place where anything stands. -/
theorem find_congr (h : files'.first? (places given user) = files.first? (places given user)) :
    find files' given user = find files given user := by
  cases given with
  | some path =>
    rw [places, first?_singleton, first?_singleton] at h
    have hinj : Function.Injective fun e : Entry => (path, e) := fun _ _ he => (Prod.mk.inj he).2
    exact readFile_congr (Option.map_injective hinj h)
  | none =>
    unfold find
    rw [select_none, select_none, h]
    cases hf : files.first? (places none user) with
    | none => rfl
    | some found =>
      obtain ⟨path, entry⟩ := found
      have hp' := toOption_of_first? (h.trans hf)
      exact readFile_congr (hp'.trans (toOption_of_first? hf).symm)

end Settings

/-! ## Runs -/

variable {files : Files} {user given : Option String}

theorem run_of_find_error {failure : Failure} (h : Settings.find files given user = .error failure)
    (input : String) : run files user given input = .error failure := by
  rw [run, h]

/-- Under settings that are found, a run does what checking the manifest does, and keeps its text. -/
theorem run_of_find_ok {levels : Levels} (h : Settings.find files given user = .ok levels)
    (input : String) :
    (run files user given input).map Passed.warnings = verifyFile files levels input ∧
      ∀ passed, run files user given input = .ok passed → files.readText input = .ok passed.text := by
  unfold run verifyFile
  rw [h]
  cases files.readText input with
  | error fault => exact ⟨rfl, by rintro _ ⟨⟩⟩
  | ok text =>
    dsimp only
    cases verify levels text with
    | error failure => exact ⟨rfl, by rintro _ ⟨⟩⟩
    | ok warnings =>
      refine ⟨rfl, fun passed hp => ?_⟩
      cases hp
      rfl

/-- A run goes by what is found for settings, and by nothing else: if they cannot be used it fails for
them, whatever the input is, and otherwise it ends with the warnings, or the failure, of the manifest
under them. So it ends alike wherever the input is the same and the first place with anything is. -/
theorem run_goes_by_settings (files : Files) (user given : Option String) :
    (∃! outcome, Settings.Found files user given outcome) ∧
    (∀ failure, Settings.Found files user given (.error failure) →
      ∀ input, run files user given input = .error failure) ∧
    (∀ levels, Settings.Found files user given (.ok levels) → ∀ input,
      (run files user given input).map Passed.warnings = verifyFile files levels input ∧
        ∀ passed, run files user given input = .ok passed →
          files.readText input = .ok passed.text) ∧
    ∀ (files' : Files) (input : String), files' input = files input →
      files'.first? (Settings.places given user) = files.first? (Settings.places given user) →
      run files' user given input = run files user given input := by
  refine ⟨⟨_, Settings.found_iff.2 rfl, fun _ h => (Settings.found_iff.1 h).symm⟩, fun _ h =>
    run_of_find_error (Settings.found_iff.1 h), fun _ h => run_of_find_ok (Settings.found_iff.1 h),
    fun files' input hinput hfirst => ?_⟩
  have hread : files'.readText input = files.readText input := by
    rw [Files.readText, Files.readText, hinput]
  rw [run, run, Settings.find_congr hfirst, hread]

/-- A manifest with a constant that leads nowhere, beside what stands at the places for settings. -/
def layeredFiles (nearby own : Except ReadFault Entry) : Files := fun path =>
  if path = "m" then
    .ok (.file "component=[\x7bname='a',connect=[\x7bconstant=1,target='z'\x7d]\x7d]".toUTF8)
  else if path = Settings.localPath then nearby
  else if path = "own" then own
  else .error .notFound

/-- Settings under which the constant is warned about. -/
def lenientFile : Except ReadFault Entry :=
  .ok (.file "check=\x7bunresolved_endpoints='warning'\x7d".toUTF8)

/-- A directory in the place of the local file fails the run, although there is a file of the user's own
and nothing to check; and once the local file is there, that of the user's own may be anything. -/
theorem run_goes_by_settings_layered :
    (Settings.Found (layeredFiles (.ok .directory) lenientFile) (some "own") none
        (.error (.unreadable .isADirectory)) ∧
      run (layeredFiles (.ok .directory) lenientFile) (some "own") none "absent" =
        .error (.unreadable .isADirectory)) ∧
    Settings.Found (layeredFiles lenientFile (.ok .directory)) (some "own") none
        (.ok { unresolvedEndpoint := .warning }) ∧
    (∃ passed, run (layeredFiles lenientFile (.ok .directory)) (some "own") none "m" = .ok passed ∧
      passed.warnings.length = 1 ∧
      verifyFile (layeredFiles lenientFile (.ok .directory)) { unresolvedEndpoint := .warning } "m" =
        .ok passed.warnings ∧
      (layeredFiles lenientFile (.ok .directory)).readText "m" = .ok passed.text) ∧
    run (layeredFiles lenientFile (.error .notFound)) (some "own") none "m" =
      run (layeredFiles lenientFile (.ok .directory)) (some "own") none "m" := by
  have hbroken : Settings.Found (layeredFiles (.ok .directory) lenientFile) (some "own") none
      (.error (.unreadable .isADirectory)) := .file (.nearby rfl) (.unreadable rfl rfl)
  have htext : (layeredFiles lenientFile (.ok .directory)).readText Settings.localPath =
      .ok "check=\x7bunresolved_endpoints='warning'\x7d" := by decide +kernel
  have hfound : Settings.Found (layeredFiles lenientFile (.ok .directory)) (some "own") none
      (.ok { unresolvedEndpoint := .warning }) :=
    .file (.nearby rfl) (.valid htext (by decide +kernel))
  have hpasses : (run (layeredFiles lenientFile (.ok .directory)) (some "own") none "m").toOption.map
      (fun passed => passed.warnings.length) = some 1 := by decide +kernel
  obtain ⟨-, hfails, -, -⟩ :=
    run_goes_by_settings (layeredFiles (.ok .directory) lenientFile) (some "own") none
  obtain ⟨-, -, hgoes, hsame⟩ :=
    run_goes_by_settings (layeredFiles lenientFile (.ok .directory)) (some "own") none
  obtain ⟨hverify, htext'⟩ := hgoes _ hfound "m"
  refine ⟨⟨hbroken, hfails _ hbroken "absent"⟩, hfound, ?_, hsame _ "m" rfl rfl⟩
  cases hrun : run (layeredFiles lenientFile (.ok .directory)) (some "own") none "m" with
  | error failure =>
    rw [hrun] at hpasses
    cases hpasses
  | ok passed =>
    rw [hrun] at hpasses hverify
    exact ⟨passed, rfl, Option.some.inj hpasses, hverify.symm, htext' passed hrun⟩

end Interconnect
