import Awen.WorkLog.CommandLabel

/-!
# Reading a command ends

The calls of `commandProgramNameInternal` go down: a command inside a command is read one level
deeper, of which there are eight, and the rest of a command line with one segment less, of which
there are 64 at first. `commandProgramName_returns` puts it together: every command line is
answered.
-/

namespace Awen.WorkLog

variable (toLowerCase : CodeUnits → CodeUnits) {call : CommandCall}

/-- **The calls that a call may make.** Beyond eight levels there is none, and none without a
segment that is left. -/
structure CommandCall.Descends (call next : CommandCall) : Prop where
  depth_lt : call.depth < maxCommandDepth
  segments_pos : 0 < call.segmentsRemaining
  step : (next.depth = call.depth + 1 ∧ next.segmentsRemaining = call.segmentsRemaining) ∨
    (next.depth = call.depth ∧ next.segmentsRemaining + 1 = call.segmentsRemaining)

/-- The levels and the segments that are left. -/
def CommandCall.rank (call : CommandCall) : ℕ :=
  maxCommandDepth - call.depth + call.segmentsRemaining

theorem CommandCall.Descends.rank_lt {next : CommandCall} (h : call.Descends next) :
    next.rank < call.rank := by
  obtain ⟨hdepth, hsegments, hstep⟩ := h
  unfold CommandCall.rank
  omega

/-- A call that may make calls. -/
structure CommandCall.IsOpen (call : CommandCall) : Prop where
  depth_lt : call.depth < maxCommandDepth
  segments_pos : 0 < call.segmentsRemaining

/-! ## The calls of the parts -/

section

variable (h : call.IsOpen)

include h

theorem callsOnly_nested (command : CodeUnits) (context : CommandProgramContext) :
    (call.nested command context).CallsOnly call.Descends :=
  CallTree.callsOnly_recurse ⟨h.depth_lt, h.segments_pos, .inl ⟨rfl, rfl⟩⟩

theorem callsOnly_nextSegment (remainingCommand : Option CodeUnits)
    (context : CommandProgramContext) :
    (call.nextSegment remainingCommand context).CallsOnly call.Descends := by
  cases remainingCommand with
  | none => exact CallTree.callsOnly_pure none
  | some command =>
    have hstep : call.segmentsRemaining - 1 + 1 = call.segmentsRemaining :=
      Nat.sub_add_cancel h.segments_pos
    exact CallTree.callsOnly_recurse ⟨h.depth_lt, h.segments_pos, .inr ⟨rfl, hstep⟩⟩

theorem callsOnly_powerShellAssignmentProgramName {command : CodeUnits}
    {remainingCommand : Option CodeUnits} {program : ProgramTree}
    (hprogram : program ∈ powerShellAssignmentProgramName toLowerCase call command
      remainingCommand) : program.CallsOnly call.Descends := by
  obtain ⟨⟨scope, value⟩, -, hprogram⟩ := Option.bind_eq_some_iff.mp hprogram
  simp only at hprogram
  repeat' split at hprogram
  all_goals obtain rfl := Option.some.inj hprogram
  · exact callsOnly_nextSegment h _ _
  · exact CallTree.callsOnly_pure _
  · exact CallTree.callsOnly_pure _
  · exact (callsOnly_nested h _ _).bind fun _ ↦ CallTree.callsOnly_pure _
  · exact callsOnly_nextSegment h _ _

theorem callsOnly_payloadProgramName (remainingCommand separator payload : Option CodeUnits) :
    (payloadProgramName call remainingCommand separator payload).CallsOnly call.Descends := by
  rw [payloadProgramName]
  split
  next => exact CallTree.callsOnly_pure none
  next => exact callsOnly_nested h _ _

theorem callsOnly_powerShellPayloadFrom {remainingCommand separator : Option CodeUnits}
    {arguments : List CodeUnits} {program : ProgramTree}
    (hprogram : program ∈ powerShellPayloadFrom toLowerCase call remainingCommand separator
      arguments) : program.CallsOnly call.Descends := by
  fun_induction powerShellPayloadFrom toLowerCase call remainingCommand separator arguments with
  | case1 | case5 => cases hprogram
  | case2 =>
    cases hprogram
    exact callsOnly_payloadProgramName h _ _ _
  | case3 | case4 | case8 =>
    cases hprogram
    exact CallTree.callsOnly_pure _
  | case6 _ _ _ _ _ _ _ _ ih => exact ih hprogram
  | case7 _ _ _ _ _ _ _ _ ih => exact ih hprogram
  | case9 _ _ _ _ _ _ _ _ _ ih => exact ih hprogram

theorem callsOnly_windowsShellPayloadProgramName {shell : CodeUnits} {arguments : List CodeUnits}
    {remainingCommand separator : Option CodeUnits} {program : ProgramTree}
    (hprogram : program ∈ windowsShellPayloadProgramName toLowerCase call shell arguments
      remainingCommand separator) : program.CallsOnly call.Descends := by
  rw [windowsShellPayloadProgramName] at hprogram
  split at hprogram
  next =>
    split at hprogram
    next => exact nomatch hprogram
    next =>
      obtain rfl := Option.some.inj hprogram
      exact callsOnly_payloadProgramName h _ _ _
  next => exact callsOnly_powerShellPayloadFrom toLowerCase h hprogram

theorem callsOnly_wrappedShellCommandProgramName (wrapper : CodeUnits)
    (arguments : List CodeUnits) (remainingCommand : Option CodeUnits) :
    (wrappedShellCommandProgramName toLowerCase call wrapper arguments
      remainingCommand).CallsOnly call.Descends := by
  rw [wrappedShellCommandProgramName]
  simp only
  split
  next => exact CallTree.callsOnly_pure none
  next =>
  split
  next => exact CallTree.callsOnly_pure none
  next =>
    refine (callsOnly_nested h _ _).bind fun wrappedProgram ↦ ?_
    split
    next => exact CallTree.callsOnly_pure _
    next =>
    split
    next => exact callsOnly_nextSegment h _ _
    next => exact CallTree.callsOnly_pure _

theorem callsOnly_programAnswer (split : ShellCommandSplit) (tokens : List CodeUnits)
    (s : ParseState) (token : CodeUnits) :
    (programAnswer toLowerCase call split tokens s token).CallsOnly call.Descends := by
  rw [programAnswer]
  simp only
  split
  next => exact callsOnly_wrappedShellCommandProgramName toLowerCase h _ _ _
  next =>
  split
  next => exact callsOnly_nextSegment h _ _
  next =>
  split
  next => exact callsOnly_nextSegment h _ _
  next =>
  split <;> exact CallTree.callsOnly_pure _

theorem callsOnly_of_wrapperOptionStep {tokens : List CodeUnits} {s : ParseState}
    {token : CodeUnits} {wrapper : CommandWrapper} {program : ProgramTree}
    (hstep : wrapperOptionStep call tokens s token wrapper = .answer program) :
    program.CallsOnly call.Descends := by
  simp only [wrapperOptionStep] at hstep
  repeat' split at hstep
  all_goals cases hstep
  all_goals first
    | exact CallTree.callsOnly_pure none
    | exact callsOnly_nested h _ _

theorem callsOnly_of_programStep {split : ShellCommandSplit} {tokens : List CodeUnits}
    {s : ParseState} {token : CodeUnits} {program : ProgramTree}
    (hstep : programStep toLowerCase call split tokens s token = .answer program) :
    program.CallsOnly call.Descends := by
  rw [programStep] at hstep
  simp only at hstep
  split at hstep
  next =>
    split at hstep <;> cases hstep
    · exact CallTree.callsOnly_pure none
    · exact callsOnly_nested h _ _
  next =>
  split at hstep
  next payload hpayload =>
    cases hstep
    split at hpayload
    next => exact callsOnly_windowsShellPayloadProgramName toLowerCase h hpayload
    next => cases hpayload
  next =>
  split at hstep
  next =>
    cases hstep
    exact CallTree.callsOnly_pure _
  next =>
  split at hstep
  next =>
    split at hstep <;> split at hstep <;> cases hstep <;> exact CallTree.callsOnly_pure none
  next =>
    split at hstep <;> cases hstep
    · refine (callsOnly_nested h _ _).bind fun wrappedProgram ↦ ?_
      split
      next => exact CallTree.callsOnly_pure _
      next => exact callsOnly_programAnswer toLowerCase h _ _ _ _
    · exact callsOnly_programAnswer toLowerCase h _ _ _ _

theorem callsOnly_of_tokenStep {split : ShellCommandSplit} {tokens : List CodeUnits}
    {s : ParseState} {program : ProgramTree}
    (hstep : tokenStep toLowerCase call split tokens s = .answer program) :
    program.CallsOnly call.Descends := by
  rw [tokenStep] at hstep
  split at hstep
  next =>
    cases hstep
    exact CallTree.callsOnly_pure none
  next token htoken =>
  split at hstep
  next next hnext =>
    split at hstep <;> cases hstep
    exact CallTree.callsOnly_pure none
  next =>
  simp only at hstep
  split at hstep
  next => cases hstep
  next =>
  split at hstep
  next =>
    cases hstep
    exact callsOnly_nextSegment h _ _
  next =>
  split at hstep
  next =>
    cases hstep
    split
    next => exact callsOnly_nextSegment h _ _
    next => exact CallTree.callsOnly_pure none
  next =>
  split at hstep
  next => cases hstep
  next =>
  split at hstep
  next => cases hstep
  next =>
  split at hstep
  next =>
    split at hstep
    next => cases hstep
    next => exact callsOnly_of_wrapperOptionStep h hstep
  next => exact callsOnly_of_programStep toLowerCase h hstep

theorem callsOnly_parseTokens (split : ShellCommandSplit) (tokens : List CodeUnits)
    (s : ParseState) : (parseTokens toLowerCase call split tokens s).CallsOnly call.Descends := by
  fun_induction parseTokens toLowerCase call split tokens s with
  | case1 s hindex s' hstep hlt ih => exact ih
  | case2 s hindex program hstep => exact callsOnly_of_tokenStep toLowerCase h hstep
  | case3 s hindex hset => exact callsOnly_nextSegment h _ _
  | case4 s hindex hset => exact CallTree.callsOnly_pure none

end

/-! ## The calls of a command -/

theorem callsOnly_parseCommandProgramName (call : CommandCall) :
    (parseCommandProgramName toLowerCase call).CallsOnly call.Descends := by
  rw [parseCommandProgramName]
  split
  next => exact CallTree.callsOnly_pure none
  next hopen =>
  have h : call.IsOpen := by
    rw [not_or] at hopen
    exact ⟨Nat.not_le.mp hopen.1, Nat.pos_of_ne_zero hopen.2⟩
  split
  next => exact CallTree.callsOnly_pure none
  next command _ =>
  split
  next => exact CallTree.callsOnly_pure none
  next =>
  simp only
  split
  next => exact callsOnly_nextSegment h _ _
  next =>
  split
  next program hprogram =>
    exact callsOnly_powerShellAssignmentProgramName toLowerCase h hprogram
  next =>
  split
  next => exact CallTree.callsOnly_pure _
  next =>
  split
  next => exact CallTree.callsOnly_pure none
  next tokens _ =>
  split
  next => exact callsOnly_nextSegment h _ _
  next => exact callsOnly_parseTokens toLowerCase h _ _ _

/-- **Every call goes one level deeper, or one segment on.** -/
theorem callsOnly_commandProgramNameInternal (call : CommandCall) :
    (commandProgramNameInternal toLowerCase call).CallsOnly call.Descends := by
  rw [commandProgramNameInternal]
  split
  next => exact CallTree.callsOnly_pure none
  next =>
  split
  next => exact CallTree.callsOnly_pure _
  next =>
    exact (callsOnly_parseCommandProgramName toLowerCase call).bind
      fun program ↦ CallTree.callsOnly_pure _

/-- **Reading a command ends.** Every call that a command leads to goes one level deeper, of which
there are eight, or takes one of its segments; what is left behind the first command of a command
line is shorter than it; and every command line is answered. -/
theorem commandProgramName_returns :
    (∀ call : CommandCall,
      (commandProgramNameInternal toLowerCase call).CallsOnly call.Descends) ∧
    (∀ command : CodeUnits, (splitFirstShellCommand command).Shortens command) ∧
    ∀ (command : CodeUnits) (depth : ℕ), ∃ program, ∀ fuel,
      maxCommandDepth + maxCommandSegments < fuel →
        commandProgramName toLowerCase fuel command depth = some program := by
  refine ⟨callsOnly_commandProgramNameInternal toLowerCase, shortens_splitFirstShellCommand,
    fun command depth ↦ ?_⟩
  obtain ⟨program, hprogram⟩ := CallTree.exists_answer
    (fun call ↦ (callsOnly_commandProgramNameInternal toLowerCase call).mono
      fun next hnext ↦ hnext.rank_lt) (.first command depth)
  refine ⟨program, fun fuel hfuel ↦ hprogram fuel (lt_of_le_of_lt ?_ hfuel)⟩
  exact Nat.add_le_add_right (Nat.sub_le ..) _

end Awen.WorkLog
