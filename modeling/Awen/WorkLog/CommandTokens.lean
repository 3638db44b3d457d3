import Awen.WorkLog.CommandSplit
import Awen.Library.OrderedMap

/-!
# The words of a command

`tokenizeShellCommand` cuts a command into words, without the quotes and escapes around them; a word
goes on through substitutions and parameter expansions. The readers of words follow: redirections,
assignments, and what a word says about the program it names.
-/

namespace Awen.WorkLog

open Composer (isSpaceUnit isDigitUnit isLowerUnit isUpperUnit isWordUnit)

/-! ## Units -/

/-- `[A-Za-z]` -/
def isLetterUnit (u : UInt16) : Bool := isLowerUnit u || isUpperUnit u

/-- `[A-Za-z_]` -/
def isNameStart (u : UInt16) : Bool := isLetterUnit u || u == 0x5f

/-- `[\\/]` -/
def isSlashUnit (u : UInt16) : Bool := u == 0x5c || u == 0x2f

/-- What `.` does not match. -/
def isLineTerminator (u : UInt16) : Bool :=
  u == 0x0a || u == 0x0d || u == 0x2028 || u == 0x2029

/-- The unit that `u` is compared by where a pattern ignores case: an ASCII letter has two cases,
and two more letters fold into ASCII. -/
def foldUnit (u : UInt16) : UInt16 :=
  if isUpperUnit u then u + 0x20 else if u = 0x17f then 0x73 else if u = 0x212a then 0x6b else u

/-- Some unit is one of a few. -/
def includesUnit (units : String) (u : Option UInt16) : Bool := u.any (unitsOf units).contains

def startsWith (start : String) (s : CodeUnits) : Bool := (unitsOf start).isPrefixOf s

def endsWith (ending : String) (s : CodeUnits) : Bool := (unitsOf ending).isSuffixOf s

/-- A text is one of a set of words. -/
def isOneOf (words : List String) (s : CodeUnits) : Bool := words.any fun word ↦ unitsOf word == s

/-- What follows a start of the text. -/
def after? (start : String) (s : CodeUnits) : Option CodeUnits :=
  if startsWith start s then some (s.drop (unitsOf start).length) else none

/-- What follows a start of the text, whatever its case. -/
def afterFolded? (start : String) (s : CodeUnits) : Option CodeUnits :=
  if (unitsOf start).isPrefixOf (s.map foldUnit) then some (s.drop (unitsOf start).length) else none

/-- The last part of a path: `split(/[\\/]/).at(-1)`. -/
def lastPart (s : CodeUnits) : CodeUnits := s.rtakeWhile fun u ↦ !isSlashUnit u

/-- A name at the start of a text, and what follows it: `[A-Za-z_][A-Za-z0-9_]*`. -/
def name? : CodeUnits → Option (CodeUnits × CodeUnits)
  | [] => none
  | u :: s => if isNameStart u then some (u :: s.takeWhile isWordUnit, s.dropWhile isWordUnit)
    else none

/-- A name at the start of a text, whatever its case. -/
def nameFolded? : CodeUnits → Option (CodeUnits × CodeUnits)
  | [] => none
  | u :: s => if isNameStart (foldUnit u) then
      some (u :: s.takeWhile (isWordUnit ∘ foldUnit), s.dropWhile (isWordUnit ∘ foldUnit))
    else none

/-! ## Words -/

/-- `/^(?:[A-Za-z]:|\.{1,2})(?:\\[^\s]*)?$/` -/
def isWindowsPathStart (s : CodeUnits) : Bool :=
  let continues (rest : CodeUnits) : Bool :=
    rest == [] || (rest.head? == some 0x5c && rest.all fun u ↦ !isSpaceUnit u)
  (s.head?.any isLetterUnit && s[1]? == some 0x3a && continues (s.drop 2)) ||
    (after? "." s).any continues || (after? ".." s).any continues

/-- What has been read of the words of a command. -/
structure TokenizerState where
  tokens : List CodeUnits := []
  current : CodeUnits := []
  quote : Option UInt16 := none
  escaping : Bool := false
  inBackticks : Bool := false
  substitutionDepth : ℕ := 0
  parameterExpansionDepth : ℕ := 0
  tokenStarted : Bool := false

section

variable (input : CodeUnits) (index : ℕ) (character : UInt16) (s : TokenizerState)

/-- The word goes on with some units. -/
def TokenizerState.add (units : CodeUnits) : TokenizerState :=
  { s with current := s.current ++ units, tokenStarted := true }

/-- A unit outside quotes and backticks. -/
def tokenizePlainUnit : LoopStep TokenizerState (Option (List CodeUnits)) :=
  let next := input[index + 1]?
  if character = 0x60 then .next { s.add [character] with inBackticks := true } 0
  else if character = 0x24 ∧ next = some 0x7b then
    .next { s.add [0x24, 0x7b] with parameterExpansionDepth := s.parameterExpansionDepth + 1 } 1
  else if character = 0x7b ∧ 0 < s.parameterExpansionDepth then
    .next { s.add [character] with parameterExpansionDepth := s.parameterExpansionDepth + 1 } 0
  else if character = 0x7d ∧ 0 < s.parameterExpansionDepth then
    .next { s.add [character] with parameterExpansionDepth := s.parameterExpansionDepth - 1 } 0
  else if character = 0x24 ∧ next = some 0x28 then
    .next { s.add [0x24, 0x28] with substitutionDepth := s.substitutionDepth + 1 } 1
  else if character = 0x28 then
    .next { s.add [character] with substitutionDepth := s.substitutionDepth + 1 } 0
  else if character = 0x29 ∧ 0 < s.substitutionDepth then
    .next { s.add [character] with substitutionDepth := s.substitutionDepth - 1 } 0
  else if isQuoteUnit character then
    .next { s with quote := some character, tokenStarted := true } 0
  else if isSpaceUnit character then
    if 0 < s.substitutionDepth ∨ 0 < s.parameterExpansionDepth then .next (s.add [character]) 0
    else if s.tokenStarted then
      .next { s with tokens := s.tokens ++ [s.current], current := [], tokenStarted := false } 0
    else .next s 0
  else .next (s.add [character]) 0

/-- One position of the tokenizer. -/
def tokenizeStep : LoopStep TokenizerState (Option (List CodeUnits)) :=
  if s.escaping then .next { s.add [character] with escaping := false } 0
  else if character = 0x5c ∧ s.quote ≠ some 0x27 then
    -- a backslash of a path, or one that escapes nothing inside double quotes, stays
    if (s.quote = some 0x22 ∨ (s.quote = none ∧ isWindowsPathStart s.current)) ∧
        (input[index + 1]?).any (fun next ↦ !(unitsOf "\"\\$`\n").contains next) then
      .next (s.add [character]) 0
    else .next { s with escaping := true, tokenStarted := true } 0
  else if s.inBackticks then
    .next { s.add [character] with inBackticks := character ≠ 0x60 } 0
  else if s.quote ≠ none then
    .next (if s.quote = some character then { s with quote := none, tokenStarted := true }
      else s.add [character]) 0
  else tokenizePlainUnit input index character s

end

/-- The words at the end of a command, if nothing is left open. -/
def tokenizeEnd (s : TokenizerState) : Option (List CodeUnits) :=
  if s.quote ≠ none ∨ s.escaping ∨ s.inBackticks ∨ 0 < s.substitutionDepth ∨
      0 < s.parameterExpansionDepth then none
  else some (if s.tokenStarted then s.tokens ++ [s.current] else s.tokens)

/-- **The words of a command**, if its quotes and brackets are closed. -/
def tokenizeShellCommand (command : CodeUnits) : Option (List CodeUnits) :=
  indexLoop (tokenizeStep (Composer.trim command)) tokenizeEnd 0 0 {} (Composer.trim command)

/-! ## Comments and line continuations -/

/-- What follows the comments at the start of a command, unless there is nothing else; `inside` says
that the position is in a comment. -/
def withoutLeadingComments : Bool → CodeUnits → Option CodeUnits
  | _, [] => none
  | true, u :: s => withoutLeadingComments (u ≠ 0x0a) s
  | false, u :: s =>
    if isSpaceUnit u then withoutLeadingComments false s
    else if u = 0x23 then withoutLeadingComments true s
    else some (u :: s)

def commandWithoutLeadingShellComments (command : CodeUnits) : Option CodeUnits :=
  withoutLeadingComments false command

structure ContinuationState where
  normalizedCommand : CodeUnits := []
  quote : Option UInt16 := none
  escaping : Bool := false

/-- One position of a command whose line continuations are taken out. -/
def continuationStep (command : CodeUnits) (index : ℕ) (character : UInt16)
    (s : ContinuationState) : LoopStep ContinuationState CodeUnits :=
  if s.escaping then
    .next { s with normalizedCommand := s.normalizedCommand ++ [character], escaping := false } 0
  else if character = 0x5c ∧ s.quote ≠ some 0x27 then
    if command[index + 1]? = some 0x0a then .next s 1
    else if command[index + 1]? = some 0x0d ∧ command[index + 2]? = some 0x0a then .next s 2
    else .next
      { s with normalizedCommand := s.normalizedCommand ++ [character], escaping := true } 0
  else
    .next
      { s with
        normalizedCommand := s.normalizedCommand ++ [character]
        quote :=
          if s.quote ≠ none then if s.quote = some character then none else s.quote
          else if isQuoteUnit character then some character
          else none } 0

def withoutShellLineContinuations (command : CodeUnits) : CodeUnits :=
  indexLoop (continuationStep command) (·.normalizedCommand) 0 0 {} command

/-! ## Redirections and assignments -/

/-- What follows the operator of a redirection: `&>>` and `&>` on their own, the other operators
with a file descriptor in front. -/
def afterRedirection? (token : CodeUnits) : Option CodeUnits :=
  let operators := ["<<<", "<<-", "<<", "<>", ">>", ">|", "<&", ">&", "<", ">"]
  let target := match token with
    | [] => []
    | u :: rest =>
      if isDigitUnit u then rest.dropWhile isDigitUnit
      else if u = 0x2a then rest
      else if u = 0x7b then
        match name? rest with
        | some (_, 0x7d :: rest) => rest
        | _ => token
      else token
  (operators.findSome? fun operator ↦ after? operator target).or
    ((after? "&>>" token).or (after? "&>" token))

/-- The position behind a redirection, which may be behind the last word. -/
def indexAfterShellRedirection (tokens : List CodeUnits) (index : ℕ) : Option ℕ := do
  let token ← tokens[index]?
  if token = [] ∨ startsWith "<(" token ∨ startsWith ">(" token then none
  else
    let target ← afterRedirection? token
    if target.any isLineTerminator then none
    else if target ≠ [] then some (index + 1)
    else if tokens.length ≤ index + 1 then some (tokens.length + 1)
    else some (index + 2)

/-- `/^[A-Za-z_][A-Za-z0-9_]*\+?=/` -/
def isAssignmentToken (token : CodeUnits) : Bool :=
  (name? token).any fun (_, rest) ↦ startsWith "=" rest || startsWith "+=" rest

/-- Words as a command that they are the words of. -/
def serializeShellTokens (tokens : List CodeUnits) : CodeUnits :=
  List.intercalate [0x20] (tokens.map fun token ↦
    [0x27] ++ token.flatMap (fun u ↦ if u = 0x27 then unitsOf "'\\''" else [u]) ++ [0x27])

theorem lt_indexAfterShellRedirection {tokens : List CodeUnits} {index next : ℕ}
    (h : indexAfterShellRedirection tokens index = some next) : index < next := by
  rw [indexAfterShellRedirection] at h
  obtain ⟨token, htoken, h⟩ := Option.bind_eq_some_iff.mp h
  have hindex : index < tokens.length := (List.getElem?_eq_some_iff.mp htoken).1
  split at h
  next => exact nomatch h
  next =>
    obtain ⟨target, -, h⟩ := Option.bind_eq_some_iff.mp h
    split at h
    next => exact nomatch h
    next =>
      split at h
      next => exact Option.some.inj h ▸ Nat.lt_succ_self index
      next =>
        split at h
        next => exact Option.some.inj h ▸ Nat.lt_succ_of_lt hindex
        next => exact Option.some.inj h ▸ Nat.lt_add_of_pos_right (by decide)

end Awen.WorkLog

/-!
## Programs that words name

What single words, and the arguments of wrappers and shells, say about the program that a command
runs. `literalCommandAliasProgramName` follows the aliases that the first segments of a command line
declare.
-/

namespace Awen.WorkLog

open Composer (isSpaceUnit isDigitUnit isLowerUnit isUpperUnit isWordUnit)

variable (toLowerCase : CodeUnits → CodeUnits)

/-! ## Words with a meaning -/

def shellPrograms : List String := ["sh", "bash", "zsh", "dash", "ash", "ksh", "fish"]

def windowsShellPrograms : List String :=
  ["cmd", "cmd.exe", "powershell", "powershell.exe", "pwsh", "pwsh.exe"]

def shellOptionsWithValue : List String := ["-o", "-O", "--rcfile", "--init-file"]

def shellCommandWrappers : List String := ["builtin", "command", "exec"]

def shellPrecommandModifiers : List String := ["nocorrect", "noglob", "time"]

def powershellSetupPrograms : List String := ["pop-location", "push-location", "set-location"]

def powershellFlags : List String := ["-mta", "-nologo", "-noninteractive", "-noprofile", "-sta"]

def powershellOptionsWithValue : List String :=
  ["-configurationname", "-executionpolicy", "-inputformat", "-outputformat", "-version",
    "-windowstyle", "-workingdirectory"]

def startProcessFlags : List String :=
  ["-confirm", "-debug", "-loaduserprofile", "-nonewwindow", "-passthru", "-usenewenvironment",
    "-verbose", "-wait", "-whatif"]

def startProcessOptionsWithValue : List String :=
  ["-argumentlist", "-credential", "-environment", "-erroraction", "-errorvariable",
    "-informationaction", "-informationvariable", "-outbuffer", "-outvariable",
    "-pipelinevariable", "-progressaction", "-redirectstandarderror", "-redirectstandardinput",
    "-redirectstandardoutput", "-verb", "-warningaction", "-warningvariable", "-windowstyle",
    "-workingdirectory"]

def skippableSudoProbes : List String := ["[", "[[", "test", "true"]

def nonProgramPrefixCharacters : String := "<>()\x7b\x7d[];|&$`#!%@:"

def nonProgramSuffixCharacters : String := ")\x7b]\x7d`"

/-- Shell syntax or control flow, not a useful name of a program. -/
def nonDescriptiveShellPrograms : List String :=
  ["!", "#", ".", ":", "[", "[[", "alias", "and", "autoload", "begin", "bg", "bind", "bindkey",
    "break", "builtin", "caller", "case", "catch", "cd", "command", "compgen", "complete",
    "compopt", "continue", "coproc", "declare", "dirs", "disown", "do", "done", "elif", "else",
    "enable", "end", "esac", "eval", "exec", "exit", "export", "false", "fc", "fg", "fi",
    "finally", "for", "foreach", "function", "getopts", "history", "if", "in", "jobs", "let",
    "local", "logout", "mapfile", "nocorrect", "noglob", "not", "or", "popd", "pushd", "read",
    "readarray", "readonly", "repeat", "return", "select", "set", "setopt", "shift", "shopt",
    "source", "switch", "suspend", "test", "then", "time", "times", "trap", "try", "true", "type",
    "typeset", "ulimit", "umask", "unalias", "until", "unset", "unsetopt", "wait", "while"]

/-- Programs that can make what follows unreachable or part of control flow. -/
def terminalShellPrograms : List String :=
  ["and", "begin", "break", "case", "catch", "continue", "coproc", "do", "done", "elif", "else",
    "end", "esac", "eval", "exec", "exit", "false", "fi", "finally", "for", "foreach", "function",
    "if", "in", "not", "or", "repeat", "return", "select", "switch", "then", "try", "until",
    "while"]

/-! ## Wrappers -/

inductive CommandWrapper where
  | env
  | sudo
  deriving DecidableEq

def commandWrapperOptionsWithValue : CommandWrapper → List String
  | .env => ["-C", "--chdir", "-S", "--split-string", "-u", "--unset"]
  | .sudo => ["-C", "--close-from", "-D", "--chdir", "-g", "--group", "-u", "--user"]

def commandWrapperFlags : CommandWrapper → List String
  | .env => ["-0", "--null", "-i", "--ignore-environment", "--debug", "-v"]
  | .sudo => ["-A", "--askpass", "-b", "--background", "-E", "-H", "-i", "-n", "-S"]

/-- The position of the script among the arguments of a shell, given the arguments from a position
on. -/
def shellCommandArgumentFrom : ℕ → List CodeUnits → Option ℕ
  | _, [] => none
  | index, option :: rest =>
    if option = unitsOf "--" ∨ startsWith "-" option = false then none
    else if isOneOf shellOptionsWithValue option then
      match rest with
      | [] => none
      | _ :: rest => shellCommandArgumentFrom (index + 2) rest
    else if option = unitsOf "--command" ∨
        (option.drop 1).all isLetterUnit ∧ (option.drop 1).contains 0x63 then some (index + 1)
    else shellCommandArgumentFrom (index + 1) rest

def shellCommandArgumentIndex (tokens : List CodeUnits) (start : ℕ) : Option ℕ :=
  shellCommandArgumentFrom start (tokens.drop start)

/-- `/^(?:\d+(?:\.\d*)?|\.\d+)[smhd]?$/` -/
def isDuration (token : CodeUnits) : Bool :=
  let whole := token.takeWhile isDigitUnit
  let rest := token.dropWhile isDigitUnit
  let fraction := after? "." rest
  let unit (rest : CodeUnits) : Bool := rest == [] || isOneOf ["s", "m", "h", "d"] rest
  match fraction with
  | none => whole != [] && unit rest
  | some digits => (whole != [] || digits.head?.any isDigitUnit) &&
      unit (digits.dropWhile isDigitUnit)

/-- The position of the command that a wrapper runs, if the wrapper can be looked through. -/
def transparentWrapperCommandIndex (wrapper : CodeUnits) (tokens : List CodeUnits) (index : ℕ) :
    Option ℕ :=
  let argument (offset : ℕ) := tokens[index + offset]?
  if wrapper = unitsOf "bundle" then
    if argument 1 = some (unitsOf "exec") ∧ argument 2 ≠ none then some (index + 2) else none
  else if wrapper = unitsOf "nohup" then
    let targetIndex := if argument 1 = some (unitsOf "--") then index + 2 else index + 1
    match tokens[targetIndex]? with
    | none => none
    | some target => if target = [] ∨ startsWith "-" target then none else some targetIndex
  else if wrapper = unitsOf "script" then
    if (argument 1).any (fun option ↦ startsWith "-" option && option.drop 1 != [] &&
        (option.drop 1).all fun u ↦ (unitsOf "adkpqr").contains u) ∧ argument 3 ≠ none then
      some (index + 3)
    else none
  else if wrapper = unitsOf "arch" then
    if (argument 1).any (isOneOf ["-arm64", "-arm64e", "-i386", "-x86_64"]) then
      if argument 2 ≠ none then some (index + 2) else none
    else if argument 1 = some (unitsOf "-arch") ∧ argument 3 ≠ none then some (index + 3)
    else none
  else if wrapper = unitsOf "timeout" ∨ wrapper = unitsOf "gtimeout" then
    if (argument 1).any isDuration ∧ argument 2 ≠ none then some (index + 2) else none
  else none

/-! ## Names -/

/-- `/^[A-Za-z][A-Za-z0-9+.-]*:(?![\\/])/` -/
def hasScheme (value : CodeUnits) : Bool :=
  let isSchemeUnit (u : UInt16) := isLetterUnit u || isDigitUnit u || (unitsOf "+.-").contains u
  value.head?.any isLetterUnit &&
    match value.dropWhile isSchemeUnit with
    | [] => false
    | u :: rest => u == 0x3a && !(rest.head?.any isSlashUnit)

/-- The name of a program that is written out. -/
def staticProgramName (value : CodeUnits) : Option CodeUnits :=
  let trimmedValue := Composer.trim value
  if trimmedValue = [] ∨ hasScheme trimmedValue then none
  else
    let program := lastPart trimmedValue
    if program = [] ∨ (program.any isSpaceUnit ∧ trimmedValue.any isSlashUnit = false) ∨
        includesUnit nonProgramPrefixCharacters program.head? ∨
        includesUnit nonProgramSuffixCharacters program.getLast? then none
    else some program

/-! ## PowerShell -/

/-- The end of a literal, with what has been read of it. -/
def literalStep (input : CodeUnits) (quote : UInt16) (index : ℕ) (character : UInt16)
    (value : CodeUnits) : LoopStep CodeUnits (Option CodeUnits) :=
  -- the loop begins behind the quote
  let next := input[index + 2]?
  match next with
  | some escaped =>
    if character = 0x60 then .next (value ++ [escaped]) 1
    else if character = quote then
      if quote = 0x27 ∧ escaped = 0x27 then .next (value ++ [0x27]) 1
      else .stop (staticProgramName value)
    else .next (value ++ [character]) 0
  | none =>
    if character = quote then .stop (staticProgramName value) else .next (value ++ [character]) 0

def leadingPowerShellLiteral (command : CodeUnits) : Option CodeUnits :=
  let input := trimStart command
  match input with
  | [] => none
  | quote :: rest =>
    if isQuoteUnit quote then indexLoop (literalStep input quote) (fun _ ↦ none) 0 0 [] rest
    else staticProgramName (input.takeWhile fun u ↦ !isSpaceUnit u)

/-- The program of a call `& program`; `none` if the command is no such call. -/
def powerShellCallOperatorProgramName (command : CodeUnits) : Option (Option CodeUnits) :=
  match trimStart command with
  | 0x26 :: u :: rest => if isSpaceUnit u then some (leadingPowerShellLiteral rest) else none
  | _ => none

/-- The scope and the value of a PowerShell assignment:
`/^\s*\$(?:(env|global|local|script):)?[A-Za-z_][A-Za-z0-9_]*\s*=\s*([\s\S]*)$/iu`. -/
def powerShellAssignment? (command : CodeUnits) : Option (Option CodeUnits × CodeUnits) := do
  let target ← after? "$" (trimStart command)
  let scope := ["env:", "global:", "local:", "script:"].find? fun scope ↦
    (afterFolded? scope target).isSome
  let length := (scope.map fun scope ↦ (unitsOf scope).length).getD 0
  let (_, rest) ← nameFolded? (target.drop length)
  let value ← after? "=" (trimStart rest)
  return (scope.map fun _ ↦ target.take (length - 1), trimStart value)

/-- `/^(?:\[ordered\]\s*)?@\s*[{(]/iu` -/
def isPowerShellCollection (value : CodeUnits) : Bool :=
  let start := ((afterFolded? "[ordered]" value).map trimStart).getD value
  (after? "@" start).any fun rest ↦ includesUnit "\x7b(" (trimStart rest).head?

/-- `/^(?:@?\(\s*)?([A-Za-z][A-Za-z0-9_.-]*)\b/` -/
def directCommand? (value : CodeUnits) : Option CodeUnits :=
  let start := (((after? "@(" value).or (after? "(" value)).map trimStart).getD value
  if start.head?.any isLetterUnit then
    let run := start.takeWhile fun u ↦ isWordUnit u || u == 0x2e || u == 0x2d
    some (run.rdropWhile fun u ↦ !isWordUnit u)
  else none

/-- The program that `Start-Process` starts, given its arguments. -/
def startProcessProgramFrom : List CodeUnits → Option CodeUnits
  | [] => none
  | token :: rest =>
    let option := toLowerCase token
    if option = unitsOf "-filepath" then staticProgramName (rest.headD [])
    else if isOneOf startProcessFlags option then startProcessProgramFrom rest
    else if isOneOf startProcessOptionsWithValue option then
      match rest with
      | [] => none
      | _ :: rest => startProcessProgramFrom rest
    else if startsWith "-" token then none
    else staticProgramName token

def startProcessProgramName (tokens : List CodeUnits) (start : ℕ) : Option CodeUnits :=
  startProcessProgramFrom toLowerCase (tokens.drop start)

/-! ## Aliases -/

/-- An assignment word, with the program that its value names. -/
def literalAssignmentProgram (token : CodeUnits) : Option (CodeUnits × Option CodeUnits) := do
  let (name, rest) ← name? token
  let value ← after? "=" rest
  let value := Composer.trim value
  if value = [] ∨ value.any (unitsOf "$`").contains then return (name, none)
  else if startsWith "(" value ∧ endsWith ")" value then
    let arrayTokens := tokenizeShellCommand (value.drop 1).dropLast
    return (name, staticProgramName ((arrayTokens.bind List.head?).getD []))
  else if value.any isSpaceUnit ∧ value.any isSlashUnit = false then return (name, none)
  else return (name, staticProgramName value)

/-- The name in `$name`, `${name}` or `${name[@]}`. -/
def referencedCommandAlias (token : CodeUnits) : Option CodeUnits := do
  let reference ← after? "$" token
  match after? "\x7b" reference with
  | some braced =>
    let (name, rest) ← name? braced
    if rest = unitsOf "\x7d" ∨ rest = unitsOf "[@]\x7d" then return name else none
  | none =>
    let (name, rest) ← name? reference
    if rest = [] then return name else none

/-- The position of the program of a segment: behind redirections and assignments. -/
def aliasCommandIndex (tokens : List CodeUnits) (index : ℕ) : ℕ :=
  if index < tokens.length then
    match hnext : (indexAfterShellRedirection tokens index).filter (· ≤ tokens.length) with
    | some next =>
      have := lt_indexAfterShellRedirection (Option.filter_eq_some_iff.mp hnext).1
      aliasCommandIndex tokens next
    | none =>
      if (tokens[index]?).any isAssignmentToken then aliasCommandIndex tokens (index + 1)
      else index
  else index
termination_by tokens.length - index

abbrev CommandAliases := OrderedMap CodeUnits CodeUnits

/-- The aliases after a segment at the top level. -/
def noteAliases (tokens : List CodeUnits) (aliases : CommandAliases) : CommandAliases :=
  let aliases :=
    if tokens.head? = some (unitsOf "unset") then
      tokens.tail.foldl (fun aliases name ↦ aliases.delete name) aliases
    else aliases
  let words := if tokens.head? = some (unitsOf "export") then tokens.tail else tokens
  match words.mapM literalAssignmentProgram with
  | some assignments =>
    assignments.foldl (fun aliases (name, program) ↦
      match program with
      | some program => aliases.set name program
      | none => aliases.delete name) aliases
  | none => aliases

/-- How deep control flow is nested after a segment. -/
def controlFlowAfter (leadingToken : Option CodeUnits) (depth : ℕ) : ℕ :=
  if leadingToken.any (isOneOf ["fi", "done", "esac"]) then depth - 1
  else if leadingToken.any (isOneOf ["if", "for", "while", "until", "select", "case"]) then
    depth + 1
  else depth

/-- The program of an alias that a segment runs, at most `segments` segments on. -/
def aliasProgramWithin : ℕ → CommandAliases → ℕ → Option CodeUnits → Option CodeUnits
  | 0, _, _, _ => none
  | _, _, _, none => none
  | segments + 1, aliases, controlFlowDepth, some command => do
    let commandWithoutComments ← commandWithoutLeadingShellComments command
    let commandSplit := splitFirstShellCommand commandWithoutComments
    let tokens ← tokenizeShellCommand (withoutShellLineContinuations commandSplit.firstCommand)
    let start := if tokens.head?.any (isOneOf ["do", "then"]) then 1 else 0
    let aliasName := (tokens[aliasCommandIndex tokens start]?).bind referencedCommandAlias
    match aliasName.bind aliases.get with
    | some program => return program
    | none =>
      let controlFlowDepth := controlFlowAfter tokens.head? controlFlowDepth
      aliasProgramWithin segments
        (if controlFlowDepth = 0 then noteAliases tokens aliases else aliases) controlFlowDepth
        commandSplit.remainingCommand

/-- The program of a literal alias that an earlier segment of the command line declares. -/
def literalCommandAliasProgramName (command : CodeUnits) : Option CodeUnits :=
  aliasProgramWithin 64 .empty 0 (nonempty? command)

end Awen.WorkLog
