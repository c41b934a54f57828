import RecipeScript.Proofs.Decoding
import RecipeScript.Proofs.FileTrees
import RecipeScript.Settings.File

/-!
# Loading a settings file

Loading settings from a path gives the settings in the text of the file there, or one of three faults (`load_eq_error_iff`).
It depends on what is read from the path, and on nothing else.
-/

namespace RecipeScript

namespace Settings

variable {files files' : Files} {path : String}

/-- Settings cannot be loaded from a path: it cannot be read, what is read is no text, or the text holds no settings. -/
inductive CannotLoad (files : Files) (path : String) : SettingsFault → Prop where
  | unreadable {cause : ReadFault} (hread : files.read path = .error cause) :
      CannotLoad files path (.unreadable path cause)
  | notText {bytes : List UInt8} (hread : files.read path = .ok bytes) (hbytes : ∀ text, bytes ≠ Utf8.encode text) :
      CannotLoad files path (.unreadable path .notText)
  | malformed {text : String} (hread : files.read path = .ok (Utf8.encode text)) (htext : ofText? text = none) :
      CannotLoad files path (.malformed path)

theorem load_of_ofText? {text : String} {settings : Settings} (hread : files.readText path = .ok text)
    (htext : ofText? text = some settings) : load files path = .ok settings := by
  unfold load
  rw [hread]
  dsimp only
  rw [htext]

theorem load_of_readText_error {cause : ReadFault} (h : files.readText path = .error cause) :
    load files path = .error (.unreadable path cause) := by
  unfold load
  rw [h]

theorem load_of_cannotLoad {fault : SettingsFault} (h : CannotLoad files path fault) :
    load files path = .error fault := by
  cases h with
  | unreadable hread => exact load_of_readText_error (readText_of_error hread)
  | notText hread hbytes => exact load_of_readText_error (readText_of_not_text hread hbytes)
  | malformed hread htext =>
      unfold load
      rw [readText_of_read hread]
      dsimp only
      rw [htext]

/-- **A fault of loading is one of the three.** -/
theorem load_eq_error_iff {fault : SettingsFault} :
    load files path = .error fault ↔ CannotLoad files path fault := by
  refine ⟨fun h => ?_, load_of_cannotLoad⟩
  -- of whatever is read, the fault that it has is the one that was found
  have hsame : ∀ {found : SettingsFault}, CannotLoad files path found → CannotLoad files path fault := by
    intro found hfound
    have hfault := (load_of_cannotLoad hfound).symm.trans h
    cases hfault
    exact hfound
  cases hread : files.read path with
  | error cause => exact hsame (.unreadable hread)
  | ok bytes =>
      by_cases hbytes : ∃ text, bytes = Utf8.encode text
      · obtain ⟨text, rfl⟩ := hbytes
        cases htext : ofText? text with
        | none => exact hsame (.malformed hread htext)
        | some settings =>
            rw [load_of_ofText? (readText_of_read hread) htext] at h
            cases h
      · exact hsame (.notText hread fun text heq => hbytes ⟨text, heq⟩)

theorem load_congr (h : files'.read path = files.read path) : load files' path = load files path := by
  unfold load
  rw [Files.readText_congr h]

end Settings

end RecipeScript
