import RouteAtlas.Fault

/-!
# Categories of faults

Whether a file is gone for good, may be readable soon, is no text, or failed for reasons of the
system. A report takes the category of the fault behind it, or else of its code.
-/

namespace RouteAtlas

/-- What kind of reaction a fault calls for. -/
inductive Category where
  | transient
  | permanent
  | encoding
  | systemError
  | unknown
deriving DecidableEq, Repr

namespace Category

/-- Every category. -/
def all : List Category := [.transient, .permanent, .encoding, .systemError, .unknown]

/-- The word for a category. -/
def word : Category → String
  | .transient => "transient"
  | .permanent => "permanent"
  | .encoding => "encoding"
  | .systemError => "system_error"
  | .unknown => "unknown"

/-- The name of a category. -/
def name : Category → String
  | .transient => "TRANSIENT"
  | .permanent => "PERMANENT"
  | .encoding => "ENCODING"
  | .systemError => "SYSTEM_ERROR"
  | .unknown => "UNKNOWN"

/-- The category with a word. -/
def ofWord? (s : String) : Option Category := all.find? (·.word == s)

end Category

/-- A category, and whether trying again may help. -/
structure Classification where
  category : Category
  retryable : Bool
deriving DecidableEq, Repr

namespace Classification

/-- What no table knows. -/
def unknown : Classification := ⟨.unknown, false⟩

/-- The classification of an error of the operating system. -/
def ofSystem : SystemKind → Classification
  | .fileNotFound | .notADirectory | .isADirectory => ⟨.permanent, false⟩
  | .permission | .timeout | .interrupted | .blocking => ⟨.transient, true⟩
  | _ => ⟨.systemError, true⟩

/-- The classification of a report by its code. -/
def ofCode : Report.Code → Classification
  | .fileNotFound | .fileTooLarge => ⟨.permanent, false⟩
  | .permissionDenied => ⟨.transient, true⟩
  | .fileReadFailed => ⟨.systemError, true⟩
  | _ => unknown

end Classification

/-- The classification of a fault. -/
def Fault.classify : Fault → Classification
  | .report _ (some behind) => behind.classify
  | .report r none => .ofCode r.code
  | .system kind _ => .ofSystem kind
  | .undecodable .. => ⟨.encoding, false⟩
  | .outOfMemory _ => ⟨.systemError, false⟩
  | _ => .unknown

/-- A file that could not be read. -/
structure Failure where
  /-- The path of the file. -/
  path : String
  /-- The name and the text of the fault. -/
  error : String
  category : Category
  /-- Whether trying again may help. -/
  retryable : Bool
deriving DecidableEq, Repr

/-- The failure that a fault makes of reading the file at `path`. -/
def Failure.ofFault (path : String) (f : Fault) : Failure :=
  let c := f.classify
  ⟨path, f.titled, c.category, c.retryable⟩

end RouteAtlas
