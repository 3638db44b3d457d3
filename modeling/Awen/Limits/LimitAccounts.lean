import Awen.Library.OrderedMap
import Awen.Library.StableSort
import Awen.Shared.JsRuntime

/-!
# Usage limits of subscription accounts

A subscription account is reported by the environments that it is signed in on, and by hubs.
`collectLimitAccounts` pools the reports of all environments: each account once, with the windows
and the reset credits of the freshest reads. `collectProviderUsageLimits` is the report for one
provider of one environment; it lists each instance by itself, with the credits and the redemption
target that a hub may have for its account.
-/

namespace Awen.Limits

/-! ## Contracts -/

/-- A text that the contracts promise to be trimmed and not empty. -/
structure TrimmedNonEmptyString where
  text : String
  trimmed : trim text = text
  nonEmpty : text ≠ ""
  deriving DecidableEq

def isSlugChar (c : Char) : Bool := c.isAlpha || c.isDigit || c == '-' || c == '_'

/-- `/^[a-zA-Z][a-zA-Z0-9_-]*$/` -/
def isProviderSlug : List Char → Bool
  | [] => false
  | c :: cs => c.isAlpha && cs.all isSlugChar

/-- The names of drivers and of instances: at most 64 letters, digits, dashes and underscores. -/
structure ProviderSlug where
  text : String
  isSlug : isProviderSlug text.toList = true
  length_le : text.length ≤ 64
  deriving DecidableEq

abbrev ProviderDriverKind := ProviderSlug

abbrev ProviderInstanceId := ProviderSlug

structure ResetCredits where
  availableCount : ℕ
  nextExpiresAt : Option String := none
  /-- Pins hub redemption to the displayed credit. -/
  nextCreditId : Option TrimmedNonEmptyString := none
  deriving DecidableEq

inductive UnavailableReason where
  | unsupported
  | probeFailed
  deriving DecidableEq

structure UnavailableLimits where
  reason : UnavailableReason
  message : Option TrimmedNonEmptyString
  deriving DecidableEq

/-- What is known of the usage of an account. `ω` stands for its quota windows. -/
structure UsageLimits (ω : Type*) where
  checkedAt : String
  windows : List ω
  resetCredits : Option ResetCredits := none
  unavailable : Option UnavailableLimits := none
  deriving DecidableEq

inductive ProviderAvailability where
  | available
  | unavailable
  deriving DecidableEq

structure ProviderAuth where
  label : Option TrimmedNonEmptyString := none
  email : Option TrimmedNonEmptyString := none
  deriving DecidableEq

structure ServerProvider (ω : Type*) where
  instanceId : ProviderInstanceId
  driver : ProviderDriverKind
  displayName : Option TrimmedNonEmptyString := none
  accentColor : Option TrimmedNonEmptyString := none
  enabled : Bool
  installed : Bool
  availability : Option ProviderAvailability := none
  auth : ProviderAuth
  usageLimits : Option (UsageLimits ω)
  deriving DecidableEq

/-- One account that a hub reports on. -/
structure UsageLimitSourceAccount (ω : Type*) where
  id : String
  driver : ProviderDriverKind
  email : Option TrimmedNonEmptyString := none
  plan : Option TrimmedNonEmptyString := none
  usageLimits : UsageLimits ω
  deriving DecidableEq

/-- The published state of a hub. -/
structure UsageLimitSource (ω : Type*) where
  id : String
  label : String
  accounts : List (UsageLimitSourceAccount ω)
  error : Option TrimmedNonEmptyString := none
  deriving DecidableEq

/-- How a reset credit is redeemed: through a provider instance, or through a hub. -/
inductive ConsumeResetCreditInput where
  | native (instanceId : ProviderInstanceId)
  | hub (sourceId accountId : String) (creditId : TrimmedNonEmptyString)
  deriving DecidableEq

variable {ω : Type*}

/-! ## Usable limits -/

namespace ServerProvider

def isProviderAvailable (snapshot : ServerProvider ω) : Bool :=
  snapshot.availability ≠ some .unavailable

end ServerProvider

/-- Providers that belong on the limits view. -/
def providersWithLimits (providers : List (ServerProvider ω)) : List (ServerProvider ω) :=
  providers.filter fun provider ↦
    provider.enabled && provider.installed && provider.isProviderAvailable &&
      provider.usageLimits.isSome

/-- The one-line status when there are no bars to draw. -/
def limitsNotice (limits : UsageLimits ω) : Option String :=
  match limits.unavailable with
  | some ⟨.unsupported, message⟩ =>
    some ((message.map (·.text)).getD "This account has no subscription limits.")
  | some ⟨.probeFailed, message⟩ => some ((message.map (·.text)).getD "Could not read limits.")
  | none => if limits.windows.length = 0 then some "No limits reported." else none

/-- A notice has a text, so asking whether it is truthy is asking whether there is one. -/
theorem limitsNotice_ne_empty {limits : UsageLimits ω} {notice : String}
    (h : limitsNotice limits = some notice) : notice ≠ "" := by
  have hmessage : ∀ (message : Option TrimmedNonEmptyString) {text : String}, text ≠ "" →
      (message.map (·.text)).getD text ≠ "" := by
    intro message text htext
    cases message with
    | none => exact htext
    | some message => exact message.nonEmpty
  rw [limitsNotice] at h
  split at h
  next message _ => exact Option.some.inj h ▸ hmessage message (by decide)
  next message _ => exact Option.some.inj h ▸ hmessage message (by decide)
  next =>
    split at h
    next => exact Option.some.inj h ▸ by decide
    next => exact nomatch h

/-! ## Accounts -/

variable (js : JsRuntime)

def accountKey (driver : ProviderDriverKind) (email : Option TrimmedNonEmptyString) :
    Option String :=
  let normalizedEmail := email.map fun email ↦ js.toLowerCase (trim email.text)
  (normalizedEmail.filter (· ≠ "")).map fun email ↦ driver.text ++ ":" ++ email

structure AccountEnvironment where
  environmentId : String
  label : String
  deriving DecidableEq

structure Redemption where
  environmentId : String
  input : ConsumeResetCreditInput
  deriving DecidableEq

/-- One subscription account as the pooled views see it. -/
structure LimitAccount (ω : Type*) where
  key : String
  driver : ProviderDriverKind
  displayName : Option String
  email : Option TrimmedNonEmptyString
  plan : Option TrimmedNonEmptyString
  accentColor : Option TrimmedNonEmptyString
  /-- Environments the account is signed in on. -/
  environments : List AccountEnvironment
  /-- The hub that reported it, when no environment has it natively. -/
  sourceLabel : Option String
  /-- Where the displayed reset credit can be redeemed. -/
  redeem : Option Redemption
  limits : UsageLimits ω
  deriving DecidableEq

structure LimitServerConfig (ω : Type*) where
  providers : Option (List (ServerProvider ω))
  usageLimitSources : Option (List (UsageLimitSource ω)) := none

structure LimitPresentation (ω : Type*) where
  /-- The label of the target. -/
  label : String
  serverConfig : Option (LimitServerConfig ω)

namespace LimitPresentation

/-- `serverConfig?.providers ?? []` -/
def providers (presentation : LimitPresentation ω) : List (ServerProvider ω) :=
  (presentation.serverConfig.bind (·.providers)).getD []

/-- `serverConfig?.usageLimitSources ?? []` -/
def usageLimitSources (presentation : LimitPresentation ω) : List (UsageLimitSource ω) :=
  (presentation.serverConfig.bind (·.usageLimitSources)).getD []

end LimitPresentation

/-- `Date.parse(left.checkedAt) > Date.parse(right.checkedAt)`, which no date that cannot be read
satisfies. -/
def isFresher (left right : UsageLimits ω) : Bool :=
  match js.dateParse left.checkedAt, js.dateParse right.checkedAt with
  | some l, some r => r < l
  | _, _ => false

/-- `next.redeem && "sourceId" in next.redeem.input` -/
def LimitAccount.redeemsThroughHub (account : LimitAccount ω) : Bool :=
  match account.redeem with
  | some ⟨_, .hub _ _ _⟩ => true
  | _ => false

/-- The account of two reports, of which the first may have been merged before. -/
def mergedAccount (hubRedeem creditSource : Option (LimitAccount ω))
    (previous next : LimitAccount ω) : LimitAccount ω :=
  let environments := previous.environments ++ next.environments.filter fun candidate ↦
    !previous.environments.any fun seen ↦ seen.environmentId == candidate.environmentId
  let winner := if isFresher js next.limits previous.limits then next else previous
  { previous with
    displayName := previous.displayName.or next.displayName
    plan := previous.plan.or next.plan
    accentColor := previous.accentColor.or next.accentColor
    environments
    sourceLabel :=
      if environments.length > 0 then none else previous.sourceLabel.or next.sourceLabel
    redeem := (hubRedeem.bind (·.redeem)).or <|
      match creditSource with
      | some creditSource => creditSource.redeem
      | none => (winner.redeem.or previous.redeem).or next.redeem
    limits :=
      { winner.limits with resetCredits := creditSource.bind (·.limits.resetCredits) } }

/-- The tables that the reports are merged into. -/
structure LimitPool (ω : Type*) where
  accounts : OrderedMap String (LimitAccount ω)
  creditSources : OrderedMap String (LimitAccount ω)
  hubRedeems : OrderedMap String (LimitAccount ω)

namespace LimitPool

def empty : LimitPool ω := ⟨.empty, .empty, .empty⟩

def merge (pool : LimitPool ω) (key : String) (next : LimitAccount ω) : LimitPool ω :=
  -- a hub target wins the redemption while the displayed balance follows the freshest read
  let hubRedeems :=
    if next.redeemsThroughHub && (pool.hubRedeems.get key).all fun previousHub ↦
        isFresher js next.limits previousHub.limits then
      pool.hubRedeems.set key next
    else pool.hubRedeems
  let creditSources :=
    if next.limits.resetCredits.isSome && (pool.creditSources.get key).all fun previousCredit ↦
        isFresher js next.limits previousCredit.limits then
      pool.creditSources.set key next
    else pool.creditSources
  let account :=
    match pool.accounts.get key with
    | none => next
    | some previous =>
      mergedAccount js (hubRedeems.get key) (creditSources.get key) previous next
  { accounts := pool.accounts.set key account, creditSources, hubRedeems }

end LimitPool

/-- `displayName?.trim() || null` -/
def trimmedName (displayName : Option TrimmedNonEmptyString) : Option String :=
  (displayName.map fun name ↦ trim name.text).filter (· ≠ "")

/-- `id.replace(/\.json$/i, "")` -/
def dropJsonSuffix (id : String) : String :=
  let stem := id.toList.take (id.toList.length - 5)
  if ((id.toList.drop stem.length).map Char.toLower) = ".json".toList then String.ofList stem
  else id

/-- What a provider instance reports of its account. -/
def nativeAccount (environmentId label : String) (provider : ServerProvider ω)
    (limits : UsageLimits ω) : LimitAccount ω where
  key := environmentId ++ ":" ++ provider.instanceId.text
  driver := provider.driver
  displayName := trimmedName provider.displayName
  email := provider.auth.email
  plan := provider.auth.label
  accentColor := provider.accentColor
  environments := [⟨environmentId, label⟩]
  sourceLabel := none
  redeem := some ⟨environmentId, .native provider.instanceId⟩
  limits := limits

/-- The report of a provider instance under its key, if the limits are usable. -/
def nativeAccount? (environmentId label : String) (provider : ServerProvider ω) :
    Option (String × LimitAccount ω) :=
  match provider.usageLimits with
  | none => none
  | some limits =>
    if (limitsNotice limits).isSome then none
    else some
      ((accountKey js provider.driver provider.auth.email).getD
          (environmentId ++ ":" ++ provider.instanceId.text),
        nativeAccount environmentId label provider limits)

/-- The target through which a hub redeems the credit of an account. -/
def hubInput? (source : UsageLimitSource ω) (account : UsageLimitSourceAccount ω) :
    Option ConsumeResetCreditInput :=
  (account.usageLimits.resetCredits.bind (·.nextCreditId)).map fun creditId ↦
    .hub source.id account.id creditId

/-- What a hub reports of an account. -/
def hubAccount (environmentId sourceLabel : String) (source : UsageLimitSource ω)
    (account : UsageLimitSourceAccount ω) : LimitAccount ω where
  key := source.id ++ ":" ++ account.id
  driver := account.driver
  displayName := if account.email.isSome then none else some (dropJsonSuffix account.id)
  email := account.email
  plan := account.plan
  accentColor := none
  environments := []
  sourceLabel := some sourceLabel
  redeem := (hubInput? source account).map fun input ↦ ⟨environmentId, input⟩
  limits := account.usageLimits

/-- The report of a hub under the key of the account, if the limits are usable. -/
def hubAccount? (environmentId sourceLabel : String) (source : UsageLimitSource ω)
    (account : UsageLimitSourceAccount ω) : Option (String × LimitAccount ω) :=
  if (limitsNotice account.usageLimits).isSome then none
  else some
    ((accountKey js account.driver account.email).getD (source.id ++ ":" ++ account.id),
      hubAccount environmentId sourceLabel source account)

/-- The usable reports of the instances of an environment, under the keys of their accounts. -/
def nativeAccounts (environmentId : String) (presentation : LimitPresentation ω) :
    List (String × LimitAccount ω) :=
  (providersWithLimits presentation.providers).filterMap
    (nativeAccount? js environmentId presentation.label)

/-- The usable reports of the hubs of an environment, under the keys of their accounts. -/
def hubAccounts (labelEnvironment : Bool) (environmentId : String)
    (presentation : LimitPresentation ω) : List (String × LimitAccount ω) :=
  presentation.usageLimitSources.flatMap fun source ↦
    let sourceLabel :=
      if labelEnvironment then presentation.label ++ " · " ++ source.label else source.label
    source.accounts.filterMap (hubAccount? js environmentId sourceLabel source)

/-- The reports in the order in which they are merged: hub accounts come after all instances. -/
def filedReports (presentations : OrderedMap String (LimitPresentation ω)) :
    List (String × LimitAccount ω) :=
  presentations.entries.flatMap (fun entry ↦ nativeAccounts js entry.1 entry.2) ++
    presentations.entries.flatMap fun entry ↦
      hubAccounts js (decide (presentations.size > 1)) entry.1 entry.2

/-- **Every account with usable windows**, one entry for each. -/
def collectLimitAccounts (presentations : OrderedMap String (LimitPresentation ω)) :
    List (LimitAccount ω) :=
  ((filedReports js presentations).foldl (fun pool filed ↦ pool.merge js filed.1 filed.2)
    LimitPool.empty).accounts.values

/-! ## The report for one provider -/

/-- One row of a usage limits report. -/
structure ReportedAccount (ω : Type*) where
  id : String
  driver : ProviderDriverKind
  label : String
  plan : Option TrimmedNonEmptyString := none
  email : Option TrimmedNonEmptyString := none
  sourceLabel : Option String := none
  instanceId : Option ProviderInstanceId := none
  resetCreditInput : Option ConsumeResetCreditInput := none
  displayName : Option TrimmedNonEmptyString := none
  accentColor : Option TrimmedNonEmptyString := none
  limits : UsageLimits ω
  deriving DecidableEq

structure UsageLimitsReport (ω : Type*) where
  createdAt : String
  accounts : List (ReportedAccount ω)
  notices : List String
  deriving DecidableEq

def hasProviderUsageLimits (driver : ProviderDriverKind) (providers : List (ServerProvider ω))
    (sources : List (UsageLimitSource ω)) : Bool :=
  (providersWithLimits providers).any (fun provider ↦ provider.driver == driver) ||
    sources.any fun source ↦
      source.accounts.any (fun account ↦ account.driver == driver) ||
        (source.error.isSome && source.accounts.length == 0)

/-- The accounts that hubs report on, each with its hub. -/
def sourceAccounts (sources : List (UsageLimitSource ω)) :
    List (UsageLimitSource ω × UsageLimitSourceAccount ω) :=
  sources.flatMap fun source ↦ source.accounts.map fun account ↦ (source, account)

/-- The freshest credits that a hub has for the account of a provider. -/
def hubCredits? (provider : ServerProvider ω) (sources : List (UsageLimitSource ω)) :
    Option (UsageLimitSource ω × UsageLimitSourceAccount ω) :=
  let key := accountKey js provider.driver provider.auth.email
  let candidates := (sourceAccounts sources).filter fun candidate ↦
    key.isSome && accountKey js candidate.2.driver candidate.2.email == key &&
      candidate.2.usageLimits.resetCredits.isSome &&
      !(limitsNotice candidate.2.usageLimits).any (· ≠ "")
  (stableSort (fun a b ↦ !isFresher js b.2.usageLimits a.2.usageLimits) candidates).head?

/-- The row of a provider instance. -/
def reportedInstance (sources : List (UsageLimitSource ω)) (provider : ServerProvider ω)
    (limits : UsageLimits ω) : ReportedAccount ω :=
  let hubCredits := hubCredits? js provider sources
  { id := provider.instanceId.text
    driver := provider.driver
    label := (trimmedName provider.displayName).getD provider.driver.text ++
      " [" ++ provider.instanceId.text ++ "]"
    plan := provider.auth.label
    instanceId := some provider.instanceId
    -- which path to redeem through prefers the hub
    resetCreditInput :=
      (hubCredits.bind fun hub ↦ hubInput? hub.1 hub.2).or (some (.native provider.instanceId))
    displayName := provider.displayName
    accentColor := provider.accentColor
    email := provider.auth.email
    -- which balance to display follows whichever snapshot is fresher
    limits :=
      match hubCredits with
      | none => limits
      | some hub =>
        if limits.resetCredits.isNone || isFresher js hub.2.usageLimits limits then
          { limits with resetCredits := hub.2.usageLimits.resetCredits }
        else limits }

/-- The row of an account that only a hub reports on. -/
def reportedHubAccount (source : UsageLimitSource ω) (account : UsageLimitSourceAccount ω) :
    ReportedAccount ω where
  id := source.id ++ ":" ++ account.id
  driver := account.driver
  label := source.label ++ " · " ++ account.id
  sourceLabel := some "CLI Proxy"
  resetCreditInput := hubInput? source account
  plan := account.plan
  email := account.email
  limits := account.usageLimits

/-- **The limits of one provider**: its instances, then the accounts that only hubs know. -/
def collectProviderUsageLimits (formatIso : ℤ → String) (instanceId : ProviderInstanceId)
    (providers : List (ServerProvider ω)) (sources : List (UsageLimitSource ω)) (now : ℤ) :
    Option (UsageLimitsReport ω) :=
  match providers.find? fun provider ↦ provider.instanceId == instanceId with
  | none => none
  | some selected =>
    if !hasProviderUsageLimits selected.driver providers sources then none
    else
      let native := (providersWithLimits providers).filter fun provider ↦
        provider.driver == selected.driver
      let nativeKeys := native.filterMap fun provider ↦
        if (provider.usageLimits.any fun limits ↦
            limits.windows.length ≠ 0 && limits.unavailable.isNone) then
          accountKey js provider.driver provider.auth.email
        else none
      let matching (source : UsageLimitSource ω) :=
        source.accounts.filter fun account ↦ account.driver == selected.driver
      some {
        createdAt := formatIso now
        accounts :=
          native.filterMap (fun provider ↦
            provider.usageLimits.map (reportedInstance js sources provider)) ++
          sources.flatMap fun source ↦
            ((matching source).filter fun account ↦
              !(accountKey js account.driver account.email).any (· ∈ nativeKeys)).map
                (reportedHubAccount source)
        notices := sources.filterMap fun source ↦
          source.error.bind fun error ↦
            if (matching source).length > 0 || source.accounts.length == 0 then
              some (source.label ++ ": " ++ error.text)
            else none }

end Awen.Limits
