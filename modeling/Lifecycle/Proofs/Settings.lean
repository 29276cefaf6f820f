import Lifecycle.Proofs.Attempt
import Lifecycle.Settings
/-!
Settings as their file has them. A file that is missing, or whose text is no JSON, sets nothing and leaves
every setting at its default; one whose text is JSON but no map, or is beyond what can be read, fails every
question. -/

namespace Lifecycle.Settings

/-- A setting as a file has it. -/
def inFile (file : Option String) (key default : String) : Except Fault String := do
  match ← lookup key (.text default) (← contents file) with
  | .null => return default
  | v => return v.display

/-- Whether what is kept is what the file has, if anything is kept. -/
def Current (file : Option String) (s : Settings) : Prop :=
  s.kept = .null ∨ contents file = .ok s.kept

/-- What is kept is never out of date while the file stays. -/
theorem run_values {file : Option String} {s : Settings} (current : Current file s) :
    ∃ after, values file s = (contents file, after) ∧ Current file after := by
  rw [values, Attempt.run_bind_ok (Attempt.run_get s)]
  by_cases unread : s.kept = .null
  · rw [unread]
    simp only [Attempt.ofExcept_bind]
    cases read : contents file with
    | error fault => exact ⟨s, rfl, current⟩
    | ok found => exact ⟨⟨found⟩, rfl, .inr read⟩
  · have read := current.resolve_left unread
    refine ⟨s, ?_, current⟩
    rw [read]
    cases kept : s.kept with
    | null => exact absurd kept unread
    | _ => rfl

theorem run_text {file : Option String} {s : Settings} (current : Current file s)
    (key default : String) :
    ∃ after, text file key default s = (inFile file key default, after) ∧ Current file after := by
  obtain ⟨after, read, still⟩ := run_values current
  refine ⟨after, ?_, still⟩
  rw [text, value, inFile, Attempt.run_bind, Attempt.run_bind, read]
  cases contents file with
  | error fault => rfl
  | ok found =>
      simp only [Attempt.run_ofExcept, bind, Except.bind]
      cases lookup key (.text default) found with
      | error fault => rfl
      | ok v => cases v <;> rfl

variable {file : Option String} {entries : Keyed String Value} {key default : String} {fault : Fault}

/-- What a file sets: the entries of the map that its text is. -/
inductive Sets : Option String → Keyed String Value → Prop where
  | missing : Sets none []
  | broken {text : String} (fault : SyntaxFault) (parsed : Json.parse text = .error (.syntactic fault)) :
      Sets (some text) []
  | map {text : String} {entries : Keyed String Value} (parsed : Json.parse text = .ok (.map entries)) :
      Sets (some text) entries

/-- How a file fails every question: its text is beyond what can be read, or JSON that is no map. -/
def Unusable (file : Option String) (fault : Fault) : Prop :=
  ∃ text, file = some text ∧
    ((∃ which, Json.parse text = .error (.excess which) ∧ fault = .ofExcess which) ∨
      ∃ v, Json.parse text = .ok v ∧ (∀ entries, v ≠ .map entries) ∧
        fault = .noAttribute "settings are no map of names to values")

/-- A setting as text; null is as good as none. -/
def setting (entries : Keyed String Value) (key default : String) : String :=
  match Keyed.find? entries key with
  | none | some .null => default
  | some v => v.display

theorem sets_or_unusable (file : Option String) :
    (∃ entries, Sets file entries) ∨ ∃ fault, Unusable file fault := by
  cases file with
  | none => exact .inl ⟨[], .missing⟩
  | some text =>
      rcases parsed : Json.parse text with (fault | which) | v
      · exact .inl ⟨[], .broken fault parsed⟩
      · exact .inr ⟨_, text, rfl, .inl ⟨which, parsed, rfl⟩⟩
      · by_cases map : ∃ entries, v = .map entries
        · obtain ⟨entries, rfl⟩ := map
          exact .inl ⟨entries, .map parsed⟩
        · exact .inr ⟨_, text, rfl, .inr ⟨v, parsed, fun entries same => map ⟨entries, same⟩, rfl⟩⟩

theorem Sets.contents (sets : Sets file entries) : Settings.contents file = .ok (.map entries) := by
  cases sets with
  | missing => rfl
  | broken fault parsed => rw [Settings.contents, parsed]
  | map parsed => rw [Settings.contents, parsed]

/-- What sets something, or nothing, gives each setting or its default. -/
theorem Sets.inFile (sets : Sets file entries) (key default : String) :
    Settings.inFile file key default = .ok (setting entries key default) := by
  rw [Settings.inFile, sets.contents, setting]
  simp only [bind, Except.bind, lookup]
  cases Keyed.find? entries key with
  | none => rfl
  | some v => cases v <;> rfl

theorem Unusable.inFile (unusable : Unusable file fault) (key default : String) :
    Settings.inFile file key default = .error fault := by
  obtain ⟨text, rfl, ⟨which, parsed, rfl⟩ | ⟨v, parsed, other, rfl⟩⟩ := unusable
  · rw [Settings.inFile, contents, parsed]
    rfl
  · rw [Settings.inFile, contents, parsed]
    cases v with
    | map entries => exact absurd rfl (other entries)
    | _ => rfl

theorem inFile_eq_ok {text : String} :
    inFile file key default = .ok text ↔
      ∃ entries, Sets file entries ∧ text = setting entries key default := by
  constructor
  · intro found
    rcases sets_or_unusable file with ⟨entries, sets⟩ | ⟨fault, unusable⟩
    · rw [sets.inFile] at found
      exact ⟨entries, sets, (Except.ok.inj found).symm⟩
    · rw [unusable.inFile] at found
      cases found
  · rintro ⟨entries, sets, rfl⟩
    exact sets.inFile key default

theorem inFile_eq_error : inFile file key default = .error fault ↔ Unusable file fault := by
  constructor
  · intro failed
    rcases sets_or_unusable file with ⟨entries, sets⟩ | ⟨other, unusable⟩
    · rw [sets.inFile] at failed
      cases failed
    · rw [unusable.inFile] at failed
      exact Except.error.inj failed ▸ unusable
  · exact fun unusable => unusable.inFile key default

/-- Where the document is kept and the level of logging are told exactly if the file is missing, its text is
no JSON, or it is a map: each is what the file sets, or its default. Any other file fails both questions. What
is kept of the file answers later questions alike. -/
theorem falls_back {s : Settings} (current : Current file s) :
    (∀ path, (statePath file s).1 = .ok path ↔
      ∃ entries, Sets file entries ∧ path = setting entries "state_path" FileStore.defaultPath) ∧
    (∀ level, (logLevel file s).1 = .ok level ↔
      ∃ entries, Sets file entries ∧ level = Text.upper (setting entries "log_level" "WARNING")) ∧
    (∀ fault, (statePath file s).1 = .error fault ↔ Unusable file fault) ∧
    (∀ fault, (logLevel file s).1 = .error fault ↔ Unusable file fault) ∧
    Current file (statePath file s).2 ∧ Current file (logLevel file s).2 := by
  obtain ⟨located, path, located_current⟩ := run_text current "state_path" FileStore.defaultPath
  obtain ⟨levelled, level, levelled_current⟩ := run_text current "log_level" "WARNING"
  have read : logLevel file s = ((inFile file "log_level" "WARNING").map Text.upper, levelled) := by
    rw [logLevel, Attempt.run_bind, level]
    cases inFile file "log_level" "WARNING" <;> rfl
  refine ⟨?_, ?_, ?_, ?_, ?_, ?_⟩
  · intro found
    rw [statePath, path, inFile_eq_ok]
  · intro found
    rw [logLevel, Attempt.bind_pure_ok, level]
    simp only [inFile_eq_ok]
    constructor
    · rintro ⟨_, ⟨entries, sets, rfl⟩, rfl⟩
      exact ⟨entries, sets, rfl⟩
    · rintro ⟨entries, sets, rfl⟩
      exact ⟨_, ⟨entries, sets, rfl⟩, rfl⟩
  · intro fault
    rw [statePath, path, inFile_eq_error]
  · intro fault
    have failed : inFile file "log_level" "WARNING" = .error fault ↔ Unusable file fault := inFile_eq_error
    rw [read, ← failed]
    cases inFile file "log_level" "WARNING" <;> simp [Except.map]
  · rw [statePath, path]
    exact located_current
  · rw [read]
    exact levelled_current

/-- A list is no map of settings, and what is no JSON leaves them at their defaults. -/
theorem falls_back_list :
    (statePath (some "[]") unread).1 = .error (.noAttribute "settings are no map of names to values") ∧
      (logLevel (some "\x7boops") unread).1 = .ok "WARNING" := by
  have list := falls_back (.inl rfl : Current (some "[]") unread)
  have broken := falls_back (.inl rfl : Current (some "\x7boops") unread)
  refine ⟨(list.2.2.1 _).mpr ⟨"[]", rfl, .inr ⟨.list [], rfl, nofun, rfl⟩⟩, (broken.2.1 _).mpr ?_⟩
  exact ⟨[], .broken ⟨.propertyName, 1, 2, 1⟩ rfl, by decide +kernel⟩

end Lifecycle.Settings
