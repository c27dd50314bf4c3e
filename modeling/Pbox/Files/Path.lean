import Pbox.Lib.Numerals

/-! Destinations of uploads and the temporary files beside them. A path is what its components are:
repeated slashes and inner current directories do not count. -/

namespace Pbox.Files
open Pbox.Lib.Strings Pbox.Lib.Numerals

inductive Component where
  | normal (name : Text)
  | parentDir
  | curDir
  deriving DecidableEq, Repr

structure Path where
  absolute : Bool
  components : List Component
  deriving DecidableEq, Repr

/-- The component that a part between slashes stands for; a current directory counts where a
relative path starts with it. -/
def component (absolute : Bool) (index : Nat) (part : Text) : Option Component :=
  if part = [] then none
  else if part = "..".toList then some .parentDir
  else if part = ".".toList then if index = 0 ∧ absolute = false then some .curDir else none
  else some (.normal part)

/-- `PathBuf::from`. -/
def Path.parse (value : Text) : Path :=
  let absolute : Bool := value.head? = some '/'
  { absolute, components := ((value.splitOn '/').mapIdx (component absolute)).reduceOption }

def Path.fileName (path : Path) : Option Text :=
  match path.components.getLast? with
  | some (.normal name) => some name
  | _ => none

def Path.withFileName (path : Path) (name : Text) : Path :=
  { path with
    components := (if path.fileName.isSome then path.components.dropLast else path.components) ++
      [.normal name] }

def temporaryName (name : Text) (process uploadId : Nat) : Text :=
  '.' :: name ++ ".pbox-upload-".toList ++ showNat process ++ '-' :: showNat uploadId

def temporaryPath (path : Path) (process uploadId : Nat) : Path :=
  path.withFileName (temporaryName (path.fileName.getD "upload".toList) process uploadId)

variable {path : Path} {process first second : Nat}

theorem fileName_components {name : Text} (named : path.fileName = some name) :
    path.components = path.components.dropLast ++ [.normal name] := by
  unfold Path.fileName at named
  split at named
  next last lastIs =>
    cases named
    exact (List.dropLast_append_getLast? _ lastIs).symm
  next => cases named

/-- The temporary file is never the destination. -/
theorem temporaryPath_ne (path : Path) (process uploadId : Nat) : temporaryPath path process uploadId ≠ path := by
  intro same
  have components := congrArg Path.components same
  unfold temporaryPath Path.withFileName at components
  cases named : path.fileName with
  | none =>
    have length := congrArg List.length components
    simp [named] at length
  | some name =>
    rw [fileName_components named] at components
    have names : temporaryName name process uploadId = name := by
      simpa [named] using components
    have length := congrArg List.length names
    simp only [temporaryName, List.length_append, List.length_cons] at length
    omega

theorem temporaryName_injective {name : Text}
    (same : temporaryName name process first = temporaryName name process second) : first = second := by
  unfold temporaryName at same
  have numerals := List.append_cancel_left same
  exact showNat_injective (List.cons.inj numerals).2

/-- Uploads to one destination with different numbers use different temporary files. -/
theorem temporaryPath_injective (same : temporaryPath path process first = temporaryPath path process second) :
    first = second := by
  have components := congrArg Path.components same
  unfold temporaryPath Path.withFileName at components
  have last := List.append_cancel_left components
  rw [List.cons.injEq] at last
  exact temporaryName_injective (Component.normal.inj last.1)

end Pbox.Files
