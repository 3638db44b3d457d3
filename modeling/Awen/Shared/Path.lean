import Awen.Shared.JsRuntime

/-!
# Workspace paths

`normalizeProjectPathForComparison` decides when two workspace roots are the same place: trailing
separators do not count, and a Windows path is compared without regard to case or to the kind of
separator.
-/

namespace Awen

/-- Whether a character is a letter of `[a-zA-Z]`. -/
def isDriveLetter (c : Char) : Bool := c.isAlpha

/-- Whether a path starts with a drive: `/^[a-zA-Z]:([/\\]|$)/`. -/
def isWindowsDrivePath (value : String) : Bool :=
  match value.toList with
  | [c, ':'] => isDriveLetter c
  | c :: ':' :: d :: _ => isDriveLetter c && (d == '/' || d == '\\')
  | _ => false

def isUncPath (value : String) : Bool := ['\\', '\\'].isPrefixOf value.toList

/-- A bare `C:` is not a root: only `C:\` and `C:/` are. -/
def isRootPath (value : String) : Bool :=
  value == "/" || value == "\\" ||
  match value.toList with
  | [c, ':', d] => isDriveLetter c && (d == '/' || d == '\\')
  | _ => false

def trimTrailingPathSeparators (value : String) : String :=
  if value.isEmpty || isRootPath value then value
  else
    let trimmed := if ['/'].isPrefixOf value.toList
      then value.toList.rdropWhile (· == '/')
      else value.toList.rdropWhile fun c ↦ c == '\\' || c == '/'
    match trimmed with
    | [] => value
    | [c, ':'] => if isDriveLetter c then String.ofList [c, ':', '\\'] else String.ofList trimmed
    | _ => String.ofList trimmed

def normalizeProjectPathForDispatch (value : String) : String :=
  trimTrailingPathSeparators (trim value)

variable (js : JsRuntime)

/-- **When two workspace roots are the same**: their normal forms are equal. -/
def normalizeProjectPathForComparison (value : String) : String :=
  let normalized := normalizeProjectPathForDispatch value
  if isWindowsDrivePath normalized || isUncPath normalized then
    js.toLowerCase (String.ofList (normalized.toList.map fun c ↦ if c == '/' then '\\' else c))
  else normalized

end Awen
