import Awen.Library.Groups
import Awen.Library.StableSort
import Awen.Orchestration.Contracts
import Awen.Shared.ChangeRequestUrl

/-!
# The pull requests of a thread

When two links name the same pull request, and which of a thread's links the one-slot surfaces and
the clients from before `pullRequests` see. Links are compared by a normalised key: lower case, one
spelling for a repository, and the authority of a Forgejo link, which only its URL still has.
-/

namespace Awen

open Orchestration

variable (js : JsRuntime)

/-! ## Keys -/

/-- What a key is normalised from: a key, perhaps with the authority or the URL of a link. -/
structure ThreadPullRequestKeySource extends ThreadPullRequestKey where
  authority : Option String := none
  url : Option String := none

/-- The key of a stored link, with its URL. -/
def keySourceOfLink (link : ThreadPullRequestLink) : ThreadPullRequestKeySource :=
  { toThreadPullRequestKey := link.toThreadPullRequestKey, url := some link.url }

/-- A bare key. -/
def keySourceOfKey (key : ThreadPullRequestKey) : ThreadPullRequestKeySource :=
  { toThreadPullRequestKey := key }

/-- **The normalised key**, with the HTTP port of a Forgejo host recovered from the URL. -/
def normalizeThreadPullRequestKey (key : ThreadPullRequestKeySource) : ThreadPullRequestKey :=
  let repository := js.toLowerCase (trim key.repository)
  let recovered := do
    let parsed ← parseChangeRequestUrl js (← key.url)
    if parsed.repository = repository ∧ parsed.number = key.number then parsed.authority else none
  let authority := key.authority.or recovered
  let canonical := canonicalRepositoryKey
    (js.toLowerCase (trim (authority.getD key.host)) ++ "/" ++ repository)
  { host := String.ofList (canonical.toList.takeWhile (· ≠ '/'))
    repository := String.ofList ((canonical.toList.dropWhile (· ≠ '/')).drop 1)
    number := key.number }

/-- The key of a legacy link. Azure selectors omit the organization and the project; these are
recovered from the URL. -/
def legacyThreadPullRequestKey (repository : String) (number : ℕ) (url : String)
    (fallbackHost : Option String := none) : ThreadPullRequestKey :=
  let recovered := do
    let parsed ← parseChangeRequestUrl js url
    let canonical := canonicalRepositoryKey (parsed.host ++ "/" ++ parsed.repository)
    if parsed.number = number
        ∧ (parsed.authority.isSome ∨ "dev.azure.com/".toList <+: canonical.toList) then
      some (normalizeThreadPullRequestKey js
        { host := parsed.host, repository := parsed.repository, number := parsed.number
          authority := parsed.authority })
    else none
  match recovered with
  | some key => key
  | none =>
    let host := fallbackHost.getD (((js.parseUrl url).map Url.hostname).getD "unknown")
    let host := js.toLowerCase (trim host)
    { host := if host = "" then "unknown" else host
      repository := js.toLowerCase (trim repository), number }

def threadPullRequestKeysEqual (left right : ThreadPullRequestKeySource) : Bool :=
  decide (normalizeThreadPullRequestKey js left = normalizeThreadPullRequestKey js right)

/-! ## The current pull request -/

/-- Links a user should see: all but the tombstones of stack members. -/
def visibleThreadPullRequests (links : List ThreadPullRequestLink) : List ThreadPullRequestLink :=
  links.filter fun link ↦ link.source ≠ .stackDismissed

/-- A link that was not synced yet counts as open. -/
def isOpen (link : ThreadPullRequestLink) : Bool :=
  match link.snapshot with
  | none => true
  | some snapshot => snapshot.state = .opened

def latestUpdatedAt (link : ThreadPullRequestLink) : ℤ :=
  (js.dateParse ((link.snapshot.bind fun s ↦ s.updatedAt).getD link.linkedAt)).getD 0

/-- The normalised key of a stored link. -/
def linkKey (link : ThreadPullRequestLink) : ThreadPullRequestKey :=
  normalizeThreadPullRequestKey js (keySourceOfLink link)

/-- The native stacks of the host, each in the order of its layers. -/
def nativeStacks (visible : List ThreadPullRequestLink) : List (List ThreadPullRequestLink) :=
  let stackKey (link : ThreadPullRequestLink) :=
    link.stack.map fun stack ↦
      (linkKey js link).host ++ "/" ++ (linkKey js link).repository ++ "#stack:" ++ stack.id
  (groupsBy stackKey (visible.filter fun link ↦ link.stack.isSome)).map fun group ↦
    let layers : List ThreadPullRequestStackLayer :=
      ((group.head?.bind ThreadPullRequestLink.stack).map ThreadPullRequestStack.layers).getD []
    -- a number in several layers stands at its last place
    let position (link : ThreadPullRequestLink) : ℕ :=
      ((layers.reverse.findIdx? fun layer ↦ layer.number == link.number).map fun i ↦
        layers.length - 1 - i).getD 0
    stableSort (fun left right ↦ decide (position left ≤ position right)) group

/-- A branch of a link's repository, in one text. -/
def branchKey (link : ThreadPullRequestLink) (branch : String) : String :=
  (linkKey js link).host ++ "/" ++ (linkKey js link).repository ++ ":" ++ branch

/-- The one link whose head is a branch; a head name that two links share identifies neither. -/
def byHead (remaining : List ThreadPullRequestLink) (key : String) :
    Option ThreadPullRequestLink :=
  match remaining.filter fun link ↦
      link.snapshot.any fun snapshot ↦ branchKey js link snapshot.headBranch = key with
  | [link] => some link
  | _ => none

/-- The link that a link is based on. -/
def baseOf (remaining : List ThreadPullRequestLink) (link : ThreadPullRequestLink) :
    Option ThreadPullRequestLink :=
  link.snapshot.bind fun snapshot ↦ byHead js remaining (branchKey js link snapshot.baseBranch)

/-- Walk from a link down its base chain, past no link that is placed already. Every step places a
key, so that `fuel` steps are enough where there are no more links than that. -/
def walkBases (remaining : List ThreadPullRequestLink) :
    ℕ → Option ThreadPullRequestLink → List ThreadPullRequestKey → List ThreadPullRequestLink →
      List ThreadPullRequestKey × List ThreadPullRequestLink
  | fuel + 1, some cursor, placed, layers =>
    if linkKey js cursor ∈ placed then (placed, layers)
    else walkBases remaining fuel (baseOf js remaining cursor) (linkKey js cursor :: placed)
      (cursor :: layers)
  | _, _, placed, layers => (placed, layers)

inductive ThreadPullRequestChainKind
  | native
  | derived
  deriving DecidableEq, Repr

/-- A chain of links, from bottom to top. -/
structure ThreadPullRequestChain where
  kind : ThreadPullRequestChainKind
  layers : List ThreadPullRequestLink
  deriving DecidableEq, Repr

/-- Links that nothing builds on. -/
def topsOf (remaining : List ThreadPullRequestLink) : List ThreadPullRequestLink :=
  let hasChild := remaining.filterMap fun link ↦
    ((baseOf js remaining link).filter fun parent ↦ parent ≠ link).map (linkKey js)
  remaining.filter fun top ↦ linkKey js top ∉ hasChild

/-- The links that are in no native stack. -/
def remainingLinks (links : List ThreadPullRequestLink) : List ThreadPullRequestLink :=
  let visible := visibleThreadPullRequests links
  let placed := (nativeStacks js visible).flatten.map (linkKey js)
  visible.filter fun link ↦ linkKey js link ∉ placed

/-- The chains of a thread's links: native stacks first, then links chained by their branches, at
last the links of cycles. -/
def resolveThreadPullRequestChains (links : List ThreadPullRequestLink) :
    List ThreadPullRequestChain :=
  let native := nativeStacks js (visibleThreadPullRequests links)
  let remaining := remainingLinks js links
  let (placed, derived) := (topsOf js remaining).foldl (fun (placed, chains) top ↦
    let (placed, layers) := walkBases js remaining remaining.length (some top) placed []
    (placed, if layers = [] then chains else chains ++ [layers]))
    (native.flatten.map (linkKey js), [])
  let cycles := remaining.filter fun link ↦ linkKey js link ∉ placed
  native.map (⟨.native, ·⟩) ++ derived.map (⟨.derived, ·⟩)
    ++ cycles.map fun link ↦ ⟨.derived, [link]⟩

/-- `Math.max` over dates, `NaN` if one is. -/
def maxDate (dates : List String) : Option ℤ :=
  dates.foldl (fun latest date ↦ do return max (← latest) (← js.dateParse date))
    (dates.head?.bind js.dateParse)

/-- **The one link that a one-slot surface shows**: open work before closed work, the highest open
layer of a chain, the top of the only chain, and else the link that was updated last. -/
def resolveThreadCurrentPullRequestLink (links : List ThreadPullRequestLink) :
    Option ThreadPullRequestLink :=
  let visible := visibleThreadPullRequests links
  match visible, visible.filter isOpen with
  | [], _ => none
  | _, [link] => some link
  | _, _ :: _ :: _ =>
    let openChains := ((resolveThreadPullRequestChains js visible).map fun chain ↦
      chain.layers.reverse.filter isOpen).filter (· ≠ [])
    let latest (chain : List ThreadPullRequestLink) := maxDate js (chain.map (·.linkedAt))
    -- a comparison with `NaN` leaves the order as it is
    let ordered := stableSort (fun left right ↦
      match latest left, latest right with
      | some l, some r => decide (r ≤ l)
      | _, _ => true) openChains
    ordered.flatten.head?
  | _, [] =>
    match resolveThreadPullRequestChains js visible with
    | [chain] => chain.layers.getLast?
    | _ => (stableSort (fun left right ↦
        decide (latestUpdatedAt js right ≤ latestUpdatedAt js left)) visible).head?

/-! ## The legacy link -/

/-- A string that is there and not empty. -/
def nonEmpty? (s : Option String) : Option String := s.filter (· ≠ "")

def sourceControlRepositorySelector (identity : RepositoryIdentity) : Option String :=
  if identity.provider = some "azure-devops" then
    (nonEmpty? identity.name).or
      (nonEmpty? ((segments (identity.displayName.getD "")).filter (· ≠ "_git")).getLast?)
  else (nonEmpty? identity.displayName).or do
    return (← nonEmpty? identity.owner) ++ "/" ++ (← nonEmpty? identity.name)

/-- The remote of a repository, if it is served over HTTP. -/
def httpRemote? (remoteUrl : String) : Option Url :=
  (js.parseUrl remoteUrl).filter fun remote ↦
    remote.protocol = "http:" ∨ remote.protocol = "https:"

/-- The host of a repository, in the provider's words where the identity has none. -/
def pullRequestHostOf (identity : RepositoryIdentity) : String :=
  let forgejo := if identity.provider = some "forgejo"
    then (httpRemote? js identity.remoteUrl).map fun remote ↦ js.toLowerCase remote.host else none
  let host := trim ((segments identity.canonicalKey).headD "")
  forgejo.getD (if host = "" then identity.provider.getD "undefined" else js.toLowerCase host)

/-- **What a legacy client sees**: the current one among the links of the thread's own
repository. -/
def legacyLinkedPullRequestOf (links : List ThreadPullRequestLink) (projectId : ProjectId)
    (identity : Option RepositoryIdentity) : Option ThreadLinkedPullRequest := do
  let identity ← identity
  let host := pullRequestHostOf js identity
  let repository ← sourceControlRepositorySelector identity
  let azureKey := if identity.provider = some "azure-devops"
    then some (canonicalRepositoryKey (js.toLowerCase identity.canonicalKey)) else none
  let own (link : ThreadPullRequestLink) : Bool :=
    match azureKey with
    | some azureKey =>
      let key := legacyThreadPullRequestKey js link.repository link.number link.url (some link.host)
      canonicalRepositoryKey (key.host ++ "/" ++ key.repository) == azureKey
    | none =>
      match parseChangeRequestUrl js link.url with
      | some { authority := some authority, host := parsedHost, repository := parsedRepository, .. } =>
        match httpRemote? js identity.remoteUrl with
        | some remote => authority == remote.host && parsedRepository == js.toLowerCase repository
        | none => parsedHost == host && parsedRepository == js.toLowerCase repository
      | _ => js.toLowerCase link.host == js.toLowerCase host &&
          js.toLowerCase link.repository == js.toLowerCase repository
  let link ← resolveThreadCurrentPullRequestLink js (links.filter own)
  return {
    projectId
    repository := if azureKey.isNone then link.repository else repository
    number := link.number
    url := link.url }

end Awen
