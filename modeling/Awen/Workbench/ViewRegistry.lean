import Mathlib.Algebra.Order.Field.Rat

/-!
# View targets

What a View shows, as product identities: `ViewTarget` of `viewRegistry.ts`, the definition that
renders a target, and the key under which the workbench recognises that a target is opened again.

`targetKey` returns a string in the source and here. Project and Workspace keys are JSON texts, in
which every component is quoted; the keys of Sessions and drafts join their components with colons,
so two different Sessions whose ids contain colons can share a key.
-/

namespace Awen.Workbench

inductive ViewKind
  | welcome
  | project
  | workspace
  | agentSession
  | newAgentSession
  | workspaceTerminal
  deriving DecidableEq, Repr

/-- The spelling of a kind. -/
def ViewKind.name : ViewKind → String
  | .welcome => "welcome"
  | .project => "project"
  | .workspace => "workspace"
  | .agentSession => "agentSession"
  | .newAgentSession => "newAgentSession"
  | .workspaceTerminal => "workspaceTerminal"

/-- The identity a View shows, without the optional definition id. -/
inductive TargetBody
  | welcome
  | project (environmentId projectId : String)
  | workspace (environmentId workspaceId : String) (initialPath : Option String)
      (revealLine : Option ℚ)
  | agentSession (environmentId workspaceId agentSessionId : String)
  | newAgentSession (environmentId workspaceId draftId : String)
  | workspaceTerminal (environmentId workspaceId terminalSessionId : String)
  deriving DecidableEq, Repr

structure ViewTarget where
  body : TargetBody
  definitionId : Option String := none
  deriving DecidableEq, Repr

namespace ViewTarget

def kind (target : ViewTarget) : ViewKind :=
  match target.body with
  | .welcome => .welcome
  | .project .. => .project
  | .workspace .. => .workspace
  | .agentSession .. => .agentSession
  | .newAgentSession .. => .newAgentSession
  | .workspaceTerminal .. => .workspaceTerminal

end ViewTarget

def definitionIdForTarget (target : ViewTarget) : String :=
  if target.kind = .newAgentSession then ViewKind.agentSession.name
  else target.definitionId.getD target.kind.name

/-! ## Target keys -/

/-- One hexadecimal digit in lower case. -/
def hexDigit (n : ℕ) : Char := if n < 10 then Char.ofNat (48 + n) else Char.ofNat (87 + n)

/-- A character inside a JSON string. -/
def jsonEscape (c : Char) : String :=
  if c = '"' then "\\\""
  else if c = '\\' then "\\\\"
  else if c.toNat = 8 then "\\b"
  else if c.toNat = 9 then "\\t"
  else if c.toNat = 10 then "\\n"
  else if c.toNat = 12 then "\\f"
  else if c.toNat = 13 then "\\r"
  else if c.toNat < 32 then
    "\\u00" ++ String.ofList [hexDigit (c.toNat / 16), hexDigit (c.toNat % 16)]
  else String.ofList [c]

def jsonQuote (s : String) : String := "\"" ++ String.join (s.toList.map jsonEscape) ++ "\""

/-- The JSON text of a list of strings. -/
def jsonStringify (items : List String) : String :=
  "[" ++ ",".intercalate (items.map jsonQuote) ++ "]"

/-- Stable identity used to detect that a target is opened again. -/
def targetKey (target : ViewTarget) : String :=
  match target.body with
  | .welcome => "welcome"
  | .project environmentId projectId =>
    jsonStringify [target.kind.name, definitionIdForTarget target, environmentId, projectId]
  | .workspace environmentId workspaceId _ _ =>
    jsonStringify [target.kind.name, definitionIdForTarget target, environmentId, workspaceId]
  | .agentSession environmentId workspaceId agentSessionId =>
    "agentSession:" ++ environmentId ++ ":" ++ workspaceId ++ ":" ++ agentSessionId
  | .newAgentSession environmentId workspaceId draftId =>
    "newAgentSession:" ++ environmentId ++ ":" ++ workspaceId ++ ":" ++ draftId
  | .workspaceTerminal environmentId workspaceId terminalSessionId =>
    "workspaceTerminal:" ++ environmentId ++ ":" ++ workspaceId ++ ":" ++ terminalSessionId

/-- How the keys of a kind begin; no beginning continues another. -/
def keyPrefix : ViewKind → String
  | .welcome => "welcome"
  | .project => "[\"p"
  | .workspace => "[\"w"
  | .agentSession => "a"
  | .newAgentSession => "n"
  | .workspaceTerminal => "wo"

theorem keyPrefix_targetKey (target : ViewTarget) :
    (keyPrefix target.kind).toList <+: (targetKey target).toList := by
  have hp : jsonEscape 'p' = "p" := by decide
  have hw : jsonEscape 'w' = "w" := by decide
  obtain ⟨body, definitionId⟩ := target
  cases body <;>
    simp [hp, hw, ViewTarget.kind, keyPrefix, targetKey, jsonStringify, jsonQuote, ViewKind.name,
      String.toList_append]

/-- Targets with one key are of one kind. -/
theorem kind_eq_of_targetKey_eq {a b : ViewTarget} (h : targetKey a = targetKey b) :
    a.kind = b.kind := by
  have ha := keyPrefix_targetKey a
  have hb := keyPrefix_targetKey b
  rw [h] at ha
  have hcomparable := List.prefix_or_prefix_of_prefix ha hb
  generalize a.kind = k at hcomparable
  generalize b.kind = k' at hcomparable
  cases k <;> cases k' <;> revert hcomparable <;> decide

/-! ## Sessions -/

/-- What a Session View is unique for: the kind of Session and its three ids. -/
structure SessionIdentity where
  kind : ViewKind
  environmentId : String
  workspaceId : String
  sessionId : String
  deriving DecidableEq, Repr

/-- The Session a target shows, if it shows one. -/
def sessionOf (target : ViewTarget) : Option SessionIdentity :=
  match target.body with
  | .agentSession e w s => some ⟨.agentSession, e, w, s⟩
  | .workspaceTerminal e w s => some ⟨.workspaceTerminal, e, w, s⟩
  | _ => none

/-- True for the Session kinds whose View is unique across the whole Workbench. -/
def isSessionViewTarget (target : ViewTarget) : Bool :=
  target.kind = .agentSession ∨ target.kind = .workspaceTerminal

/-- Compare two targets by Session identity across environments and workspaces. -/
def isSameSessionTarget (a b : ViewTarget) : Bool :=
  match a.body, b.body with
  | .agentSession e w s, .agentSession e' w' s' => e = e' ∧ w = w' ∧ s = s'
  | .workspaceTerminal e w s, .workspaceTerminal e' w' s' => e = e' ∧ w = w' ∧ s = s'
  | _, _ => false

theorem isSameSessionTarget_iff {a b : ViewTarget} : isSameSessionTarget a b = true ↔
    ∃ session, sessionOf a = some session ∧ sessionOf b = some session := by
  rw [isSameSessionTarget, sessionOf, sessionOf]
  cases a.body <;> cases b.body <;> simp <;> tauto

theorem isSessionViewTarget_iff {target : ViewTarget} :
    isSessionViewTarget target = true ↔ ∃ session, sessionOf target = some session := by
  rw [isSessionViewTarget, ViewTarget.kind, sessionOf]
  cases target.body <;> simp

/-- Two targets of one Session have one key. -/
theorem targetKey_eq_of_sessionOf {a b : ViewTarget} {session : SessionIdentity}
    (ha : sessionOf a = some session) (hb : sessionOf b = some session) :
    targetKey a = targetKey b := by
  obtain ⟨a, _⟩ := a
  obtain ⟨b, _⟩ := b
  cases a <;> simp only [sessionOf, Option.some_inj, reduceCtorEq] at ha <;> subst ha <;>
    cases b <;> simp_all [sessionOf, targetKey]

end Awen.Workbench
