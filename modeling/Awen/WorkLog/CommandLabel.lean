import Awen.Library.CallTrees
import Awen.WorkLog.CommandTokens

/-!
# The program that a command runs

A command line of the work log is labelled with the program it runs. `commandProgramNameInternal`
reads the first command: it passes redirections, assignments, wrappers and modifiers, and it reads
again what a wrapper or a shell runs, or the rest of the command line where the first command says
nothing. Every such call gives its depth and the segments that are left by hand.
-/

namespace Awen.WorkLog

open Composer (isSpaceUnit)

/-! ## Calls -/

inductive CommandProgramContext where
  | exec
  | shell
  deriving DecidableEq

/-- The arguments of a call. -/
structure CommandCall where
  command : CodeUnits
  depth : ℕ
  context : CommandProgramContext
  segmentsRemaining : ℕ

abbrev ProgramTree := CallTree CommandCall (Option CodeUnits) (Option CodeUnits)

def maxCommandSegments : ℕ := 64

def maxCommandDepth : ℕ := 8

namespace CommandCall

variable (call : CommandCall)

/-- Read a command inside the command. -/
def nested (command : CodeUnits) (context : CommandProgramContext) : ProgramTree :=
  .recurse
    { command, depth := call.depth + 1, context, segmentsRemaining := call.segmentsRemaining }

/-- Read the rest of the command line, if there is any. -/
def nextSegment (remainingCommand : Option CodeUnits) (context : CommandProgramContext) :
    ProgramTree :=
  match remainingCommand with
  | none => pure none
  | some command => .recurse
      { command, depth := call.depth, context, segmentsRemaining := call.segmentsRemaining - 1 }

end CommandCall

variable (toLowerCase : CodeUnits → CodeUnits) (call : CommandCall)

/-! ## PowerShell assignments and Windows shells -/

/-- The program of a PowerShell assignment; `none` if the command is no assignment. -/
def powerShellAssignmentProgramName (command : CodeUnits) (remainingCommand : Option CodeUnits) :
    Option ProgramTree := do
  let (scope, value) ← powerShellAssignment? command
  -- the value of an environment variable is no command
  if scope.any fun scope ↦ toLowerCase scope == unitsOf "env" then
    return call.nextSegment remainingCommand .shell
  let value := Composer.trim value
  if isPowerShellCollection value then return pure none
  match powerShellCallOperatorProgramName value with
  | some calledProgram => return pure calledProgram
  | none =>
    match (directCommand? value).filter
        fun direct ↦ !isOneOf nonDescriptiveShellPrograms (toLowerCase direct) with
    | some directCommand => return do
        let parsedCommand ← call.nested value .shell
        return parsedCommand.or (some directCommand)
    | none => return call.nextSegment remainingCommand .shell

/-- The program of what a Windows shell is told to run, in front of the rest of the command line. -/
def payloadProgramName (remainingCommand separator payload : Option CodeUnits) : ProgramTree :=
  match payload.bind nonempty? with
  | none => pure none
  | some payload =>
    let command := match remainingCommand, separator with
      | some remaining, some separator =>
        payload ++ [0x20] ++ separator ++ [0x20] ++ remaining
      | _, _ => payload
    call.nested command .shell

/-- The program of a PowerShell command line, given its arguments. -/
def powerShellPayloadFrom (remainingCommand separator : Option CodeUnits) :
    List CodeUnits → Option ProgramTree
  | [] => none
  | token :: rest =>
    let option := toLowerCase token
    if isOneOf ["-command", "-c"] option then
      some (payloadProgramName call remainingCommand separator rest.head?)
    else if isOneOf ["-file", "-f"] option then some (pure (staticProgramName (rest.headD [])))
    else if isOneOf ["-encodedcommand", "-enc", "-e"] option then some (pure none)
    else if isOneOf powershellOptionsWithValue option then
      match rest with
      | [] => none
      | _ :: rest => powerShellPayloadFrom remainingCommand separator rest
    else if isOneOf powershellFlags option then
      powerShellPayloadFrom remainingCommand separator rest
    else if startsWith "-" option = false then some (pure (staticProgramName token))
    else powerShellPayloadFrom remainingCommand separator rest

/-- The program of a Windows shell with its arguments; `none` if they name none. -/
def windowsShellPayloadProgramName (shell : CodeUnits) (arguments : List CodeUnits)
    (remainingCommand separator : Option CodeUnits) : Option ProgramTree :=
  if isOneOf ["cmd", "cmd.exe"] shell then
    match arguments.dropWhile fun token ↦ !isOneOf ["/c", "/k"] (toLowerCase token) with
    | [] => none
    | _ :: rest => some (payloadProgramName call remainingCommand separator rest.head?)
  else powerShellPayloadFrom toLowerCase call remainingCommand separator arguments

/-! ## Wrapped commands -/

/-- What `command` runs, given its arguments; `none` for an option that is not known. -/
def argumentsOfCommand : List CodeUnits → Option (List CodeUnits)
  | [] => some []
  | option :: rest =>
    if option = unitsOf "--" then some rest
    else if startsWith "-" option = false ∨ option = unitsOf "-" then some (option :: rest)
    else if option ≠ unitsOf "-p" then none
    else argumentsOfCommand rest

/-- What `builtin` runs. -/
def argumentsOfBuiltin : List CodeUnits → Option (List CodeUnits)
  | [] => some []
  | option :: rest =>
    if option = unitsOf "--" then some rest
    else if startsWith "-" option then none
    else some (option :: rest)

/-- What `exec` runs. -/
def argumentsOfExec : List CodeUnits → Option (List CodeUnits)
  | [] => some []
  | option :: rest =>
    if option = unitsOf "--" then some rest
    else if option = unitsOf "-a" then
      match rest with
      | [] => none
      | _ :: rest => argumentsOfExec rest
    else if (after? "-a" option).any (fun name ↦ name.head?.any fun u ↦ !isLineTerminator u) ∨
        (after? "-" option).any
          (fun flags ↦ flags != [] && flags.all fun u ↦ (unitsOf "cl").contains u) then
      argumentsOfExec rest
    else if startsWith "-" option ∧ option ≠ unitsOf "-" then none
    else some (option :: rest)

/-- The position behind the redirections from a position on. -/
def indexAfterRedirections (tokens : List CodeUnits) (index : ℕ) : ℕ :=
  if index < tokens.length then
    match hnext : (indexAfterShellRedirection tokens index).filter (· ≤ tokens.length) with
    | some next =>
      have := lt_indexAfterShellRedirection (Option.filter_eq_some_iff.mp hnext).1
      indexAfterRedirections tokens next
    | none => index
  else index
termination_by tokens.length - index

/-- The program that a shell wrapper runs, given its arguments. -/
def wrappedShellCommandProgramName (wrapper : CodeUnits) (arguments : List CodeUnits)
    (remainingCommand : Option CodeUnits) : ProgramTree :=
  let wrappedTokens := if wrapper = unitsOf "command" then argumentsOfCommand arguments
    else if wrapper = unitsOf "builtin" then argumentsOfBuiltin arguments
    else if wrapper = unitsOf "exec" then argumentsOfExec arguments
    else some arguments
  match wrappedTokens.filter (· ≠ []) with
  | none => pure none
  | some wrappedTokens =>
    let target := (wrappedTokens[indexAfterRedirections wrappedTokens 0]?).bind nonempty?
    if target.any isAssignmentToken then pure none
    else do
      let isExec := wrapper == unitsOf "exec"
      let wrappedProgram ←
        call.nested (serializeShellTokens wrappedTokens) (if isExec then .exec else .shell)
      if wrappedProgram.isSome then return wrappedProgram
      else if !isExec && target.any (fun target ↦ target == toLowerCase target &&
          isOneOf nonDescriptiveShellPrograms target && !isOneOf terminalShellPrograms target) then
        call.nextSegment remainingCommand .shell
      else return none

/-! ## The words of a command -/

/-- Where the reading of the words stands. -/
structure ParseState where
  index : ℕ := 0
  wrapper : Option CommandWrapper := none
  executionContext : CommandProgramContext
  sawAssignment : Bool := false
  sawRedirection : Bool := false

/-- What a word leads to: more words, or the answer. -/
inductive TokenStep where
  | again (s : ParseState)
  | answer (program : ProgramTree)

/-- Whether the last of some short options takes the next word; `none` for an option that is not
known. -/
def shortOptionsConsume (wrapper : CommandWrapper) : CodeUnits → Option Bool
  | [] => some false
  | option :: rest =>
    if isOneOf (commandWrapperOptionsWithValue wrapper) [0x2d, option] then some (rest == [])
    else if isOneOf (commandWrapperFlags wrapper) [0x2d, option] then
      shortOptionsConsume wrapper rest
    else none

section

variable (split : ShellCommandSplit) (tokens : List CodeUnits) (s : ParseState)
  (token : CodeUnits)

/-- An option of `env` or `sudo`. -/
def wrapperOptionStep (wrapper : CommandWrapper) : TokenStep :=
  let next := tokens[s.index + 1]?
  if wrapper = .env ∧ isOneOf ["-S", "--split-string"] token then
    match next.bind nonempty? with
    | none => .answer (pure none)
    | some splitCommand => .answer (call.nested splitCommand s.executionContext)
  else
    match (after? "--split-string=" token).filter fun _ ↦ wrapper = .env with
    | some splitCommand => .answer (call.nested splitCommand s.executionContext)
    | none =>
      if isOneOf (commandWrapperOptionsWithValue wrapper) token then
        if next = none then .answer (pure none) else .again { s with index := s.index + 2 }
      else if isOneOf (commandWrapperFlags wrapper) token then
        .again { s with index := s.index + 1 }
      else if startsWith "--" token ∧ token.contains 0x3d ∧ 2 < token.idxOf 0x3d then
        if isOneOf (commandWrapperOptionsWithValue wrapper) (token.take (token.idxOf 0x3d)) then
          .again { s with index := s.index + 1 }
        else .answer (pure none)
      else if (token[1]?).any isLetterUnit ∧ (token[2]?).any fun u ↦ !isLineTerminator u then
        match shortOptionsConsume wrapper (token.drop 1) with
        | none => .answer (pure none)
        | some false => .again { s with index := s.index + 1 }
        | some true =>
          if next = none then .answer (pure none) else .again { s with index := s.index + 2 }
      else .answer (pure none)

/-- The answer for a word that names a program. -/
def programAnswer : ProgramTree :=
  let tokenProgram := lastPart token
  let isUnqualified := token == tokenProgram && tokenProgram != []
  let inShell := s.executionContext == .shell
  if isUnqualified ∧ isOneOf shellCommandWrappers tokenProgram then
    wrappedShellCommandProgramName toLowerCase call tokenProgram (tokens.drop (s.index + 1))
      split.remainingCommand
  else if (inShell || (s.wrapper == some .sudo && isOneOf skippableSudoProbes tokenProgram)) ∧
      isUnqualified ∧ isOneOf nonDescriptiveShellPrograms tokenProgram ∧
      (isOneOf terminalShellPrograms tokenProgram = false ∨
        (tokenProgram = unitsOf "false" ∧ split.separator ≠ some (unitsOf "&&"))) ∧
      split.remainingCommand ≠ none then
    call.nextSegment split.remainingCommand .shell
  else if inShell ∧ isUnqualified ∧
      isOneOf powershellSetupPrograms (toLowerCase tokenProgram) ∧
      split.remainingCommand ≠ none then
    call.nextSegment split.remainingCommand .shell
  else if tokenProgram = [] ∨ (isUnqualified ∧ isOneOf nonDescriptiveShellPrograms tokenProgram) ∨
      includesUnit nonProgramPrefixCharacters tokenProgram.head? ∨
      includesUnit nonProgramSuffixCharacters tokenProgram.getLast? ∨
      endsWith "()" tokenProgram ∨ (name? tokenProgram).any (fun (_, rest) ↦
        rest == unitsOf "()\x7b") then pure none
  else pure (some tokenProgram)

/-- A word that names a program. -/
def programStep : TokenStep :=
  let tokenProgram := lastPart token
  let isUnqualified := token == tokenProgram && tokenProgram != []
  let lowerTokenProgram := toLowerCase tokenProgram
  let withoutExe := if (unitsOf ".exe").isSuffixOf (tokenProgram.map Composer.lowerUnit) then
    tokenProgram.take (tokenProgram.length - 4) else tokenProgram
  let scriptIndex := (shellCommandArgumentIndex tokens (s.index + 1)).filter fun _ ↦
    tokenProgram != [] && isOneOf shellPrograms (toLowerCase withoutExe)
  let payload := if tokenProgram ≠ [] ∧ isOneOf windowsShellPrograms lowerTokenProgram then
    windowsShellPayloadProgramName toLowerCase call lowerTokenProgram (tokens.drop (s.index + 1))
      split.remainingCommand split.separator else none
  let startedProgram := if tokenProgram ≠ [] ∧ lowerTokenProgram = unitsOf "start-process" then
    startProcessProgramName toLowerCase tokens (s.index + 1) else none
  match scriptIndex with
  | some scriptIndex =>
    match (tokens[scriptIndex]?).bind nonempty? with
    | none => .answer (pure none)
    | some script => .answer (call.nested script .shell)
  | none =>
  match payload with
  | some program => .answer program
  | none =>
  match startedProgram with
  | some startedProgram => .answer (pure (some startedProgram))
  | none =>
  if s.executionContext = .shell ∧ isUnqualified ∧
      isOneOf shellPrecommandModifiers tokenProgram then
    let index := if tokenProgram = unitsOf "time" ∧ tokens[s.index + 1]? = some (unitsOf "-p") then
      s.index + 2 else s.index + 1
    if (tokens[index]?).any (startsWith "-") then .answer (pure none)
    else .again { s with index }
  else
    match (transparentWrapperCommandIndex tokenProgram tokens s.index).filter
        fun _ ↦ isUnqualified with
    | some targetIndex => .answer do
        let wrappedProgram ← call.nested (serializeShellTokens (tokens.drop targetIndex)) .exec
        if wrappedProgram.isSome then return wrappedProgram
        else programAnswer toLowerCase call split tokens s token
    | none => .answer (programAnswer toLowerCase call split tokens s token)

/-- The word at the position that is reached. -/
def tokenStep : TokenStep :=
  match (tokens[s.index]?).bind nonempty? with
  | none => .answer (pure none)
  | some token =>
    match indexAfterShellRedirection tokens s.index with
    | some next =>
      if tokens.length < next then .answer (pure none)
      else .again { s with sawRedirection := true, index := next }
    | none =>
      let tokenProgram := lastPart token
      if isAssignmentToken token then
        .again { s with sawAssignment := true, index := s.index + 1 }
      else if s.executionContext = .shell ∧ token = unitsOf ":" then
        .answer (call.nextSegment split.remainingCommand s.executionContext)
      else if includesUnit nonProgramPrefixCharacters token.head? ∧
          ¬(startsWith "$" token ∧ token.contains 0x2f) then
        .answer (if s.executionContext = .shell ∧ startsWith "[" token then
          call.nextSegment split.remainingCommand s.executionContext else pure none)
      else if tokenProgram = unitsOf "env" then
        .again { s with wrapper := some .env, executionContext := .exec, index := s.index + 1 }
      else if tokenProgram = unitsOf "sudo" then
        .again { s with wrapper := some .sudo, executionContext := .exec, index := s.index + 1 }
      else
        match s.wrapper.filter fun _ ↦ startsWith "-" token with
        | some wrapper =>
          if token = unitsOf "--" then .again { s with wrapper := none, index := s.index + 1 }
          else wrapperOptionStep call tokens s token wrapper
        | none => programStep toLowerCase call split tokens s token

end

/-! ## Every word is passed once -/

theorem lt_of_wrapperOptionStep {tokens : List CodeUnits} {s s' : ParseState} {token : CodeUnits}
    {wrapper : CommandWrapper} (h : wrapperOptionStep call tokens s token wrapper = .again s') :
    s.index < s'.index := by
  simp only [wrapperOptionStep] at h
  repeat' split at h
  all_goals cases h
  all_goals exact Nat.lt_add_of_pos_right (by decide)

theorem lt_of_programStep {split : ShellCommandSplit} {tokens : List CodeUnits} {s s' : ParseState}
    {token : CodeUnits} (h : programStep toLowerCase call split tokens s token = .again s') :
    s.index < s'.index := by
  rw [programStep] at h
  simp only at h
  split at h
  next => split at h <;> exact nomatch h
  next =>
  split at h
  next => exact nomatch h
  next =>
  split at h
  next => exact nomatch h
  next =>
  split at h
  next =>
    -- the modifier and perhaps its option are passed
    split at h <;> split at h <;> cases h <;> exact Nat.lt_add_of_pos_right (by decide)
  next => split at h <;> exact nomatch h

/-- **A step goes on behind the word it is at.** -/
theorem lt_of_tokenStep {split : ShellCommandSplit} {tokens : List CodeUnits} {s s' : ParseState}
    (h : tokenStep toLowerCase call split tokens s = .again s') : s.index < s'.index := by
  rw [tokenStep] at h
  split at h
  next => exact nomatch h
  next token htoken =>
  split at h
  next next hnext =>
    split at h
    next => exact nomatch h
    next =>
      obtain rfl := TokenStep.again.inj h
      exact lt_indexAfterShellRedirection hnext
  next =>
  simp only at h
  split at h
  next => exact TokenStep.again.inj h ▸ Nat.lt_succ_self _
  next =>
  split at h
  next => exact nomatch h
  next =>
  split at h
  next => exact nomatch h
  next =>
  split at h
  next => exact TokenStep.again.inj h ▸ Nat.lt_succ_self _
  next =>
  split at h
  next => exact TokenStep.again.inj h ▸ Nat.lt_succ_self _
  next =>
  split at h
  next =>
    split at h
    next => exact TokenStep.again.inj h ▸ Nat.lt_succ_self _
    next => exact lt_of_wrapperOptionStep call h
  next => exact lt_of_programStep toLowerCase call h

/-! ## Commands -/

/-- The words of a command from a position on. -/
def parseTokens (split : ShellCommandSplit) (tokens : List CodeUnits) (s : ParseState) :
    ProgramTree :=
  if s.index < tokens.length then
    match hstep : tokenStep toLowerCase call split tokens s with
    | .again s' =>
      have := lt_of_tokenStep toLowerCase call hstep
      parseTokens split tokens s'
    | .answer program => program
  else if (s.sawAssignment ∨ s.sawRedirection) ∧ s.wrapper = none then
    call.nextSegment split.remainingCommand s.executionContext
  else pure none
termination_by tokens.length - s.index

/-- `/^(?:catch|finally|for|foreach|function|if|param|switch|try|while)\s*[{(]/iu` -/
def isControlFlowBlock (command : CodeUnits) : Bool :=
  ["catch", "finally", "for", "foreach", "function", "if", "param", "switch", "try", "while"].any
    fun keyword ↦ (afterFolded? keyword command).any fun rest ↦
      includesUnit "\x7b(" (trimStart rest).head?

/-- `/^[A-Za-z_][A-Za-z0-9_]*\s*\(\s*\)\s*\{/` -/
def isFunctionDefinition (command : CodeUnits) : Bool :=
  (do
    let (_, rest) ← name? command
    let rest ← after? "(" (trimStart rest)
    let rest ← after? ")" (trimStart rest)
    after? "\x7b" (trimStart rest)).isSome

/-- `/^@["'](?:\r?\n)/` -/
def isHereString (command : CodeUnits) : Bool :=
  match command with
  | 0x40 :: quote :: rest => isQuoteUnit quote && (startsWith "\n" rest || startsWith "\r\n" rest)
  | _ => false

/-- A path of Windows at the start of a command: one or two dots, or a variable, and a backslash
with what follows it up to a blank. -/
def windowsPath? (command : CodeUnits) : Option CodeUnits :=
  let command := trimStart command
  let parameter? : Option CodeUnits := do
    let rest ← after? "%" command
    let (_, rest) ← nameFolded? rest
    after? "%" rest
  let environment? : Option CodeUnits := do
    let rest ← afterFolded? "$env:" command
    let (_, rest) ← nameFolded? rest
    return rest
  [after? "." command, after? ".." command, parameter?, environment?].findSome? fun rest? ↦ do
    let rest ← rest?
    let path ← after? "\\" rest
    if path.head?.any fun u ↦ !isSpaceUnit u then
      return command.takeWhile fun u ↦ !isSpaceUnit u
    else none

/-- The program of the first command of a command line. -/
def parseCommandProgramName : ProgramTree :=
  if maxCommandDepth ≤ call.depth ∨ call.segmentsRemaining = 0 then pure none
  else
    match commandWithoutLeadingShellComments call.command with
    | none => pure none
    | some command =>
      if isControlFlowBlock command ∨ isFunctionDefinition command ∨ startsWith "[[" command then
        pure none
      else
        let split := splitFirstShellCommand command
        if isHereString (trimStart split.firstCommand) then
          call.nextSegment split.remainingCommand .shell
        else
          match powerShellAssignmentProgramName toLowerCase call split.firstCommand
              split.remainingCommand with
          | some program => program
          | none =>
            match windowsPath? split.firstCommand with
            | some path => pure (staticProgramName path)
            | none =>
              match tokenizeShellCommand (withoutShellLineContinuations split.firstCommand) with
              | none => pure none
              | some tokens =>
                -- a quoted text that is no command
                if tokens.length = 1 ∧ (trimStart split.firstCommand).head?.any isQuoteUnit ∧
                    (tokens.headD []).any (fun u ↦ isSpaceUnit u || (unitsOf "()=").contains u) ∧
                    (tokens.headD []).any isSlashUnit = false then
                  call.nextSegment split.remainingCommand call.context
                else parseTokens toLowerCase call split tokens { executionContext := call.context }

/-- **The calls that reading a command makes**, and its program. -/
def commandProgramNameInternal : ProgramTree :=
  if call.segmentsRemaining = 0 then pure none
  else
    match powerShellCallOperatorProgramName call.command with
    | some calledProgram => pure calledProgram
    | none => do
      let program ← parseCommandProgramName toLowerCase call
      return program.or (if call.context = .shell then
        literalCommandAliasProgramName call.command else none)

/-- The first call for a command line. -/
def CommandCall.first (command : CodeUnits) (depth : ℕ) : CommandCall :=
  { command, depth, context := .shell, segmentsRemaining := maxCommandSegments }

/-- **The program that a command line runs**, read with at most `fuel` calls inside each other. -/
def commandProgramName (fuel : ℕ) (command : CodeUnits) (depth : ℕ := 0) :
    Option (Option CodeUnits) :=
  CallTree.answerWithin (commandProgramNameInternal toLowerCase) fuel (.first command depth)

end Awen.WorkLog
