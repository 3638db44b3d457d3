import Mathlib
import Awen.Shared.JsRuntime

/-!
# Change request URLs

Which repository and which number a pull request URL names, `parseChangeRequestUrl`, and the one
spelling of a repository key that has several, `canonicalRepositoryKey`. Both read a path by its
segments between slashes.
-/

namespace Awen

/-- The parts of a text between slashes. -/
def segments (s : String) : List String := (s.toList.splitOn '/').map String.ofList

/-- Segments joined by slashes. -/
def joinSegments (parts : List String) : String := String.intercalate "/" parts

/-- The value of `\d+`, if the text is one. -/
def naturalNumber? (s : String) : Option ℕ :=
  if s.toList ≠ [] ∧ s.toList.all Char.isDigit then
    some (s.toList.foldl (fun k c ↦ 10 * k + (c.toNat - '0'.toNat)) 0)
  else none

/-- `Number.MAX_SAFE_INTEGER`. -/
def maxSafeInteger : ℕ := 2 ^ 53 - 1

/-- The one spelling of a repository key: the two older hosts of Azure DevOps become its current
one. -/
def canonicalRepositoryKey (key : String) : String :=
  match segments key with
  | ["ssh.dev.azure.com", "v3", org, project, repo]
  | ["vs-ssh.visualstudio.com", "v3", org, project, repo] =>
    if org ≠ "" ∧ project ≠ "" ∧ repo ≠ "" then
      joinSegments ["dev.azure.com", org, project, "_git", repo]
    else key
  | _ =>
    let org := String.ofList (key.toList.takeWhile (· ≠ '.'))
    let rest := key.toList.dropWhile (· ≠ '.')
    let apex := ".visualstudio.com/".toList
    if org ≠ "" ∧ apex <+: rest then
      match segments (String.ofList (rest.drop apex.length)) with
      | ["defaultcollection", project, "_git", repo] | [project, "_git", repo] =>
        if project ≠ "" ∧ repo ≠ "" then
          joinSegments ["dev.azure.com", org, project, "_git", repo]
        else key
      | _ => key
    else key

/-- A change request as a URL names it. The authority, the host with its port, stands beside the
host for Forgejo alone. -/
structure ChangeRequestLink where
  host : String
  repository : String
  number : ℕ
  authority : Option String := none
  deriving DecidableEq, Repr

/-- The host itself, one of its subdomains, or an install named after the provider. -/
def isHostOf (hostname apex : String) (label : Option String := none) : Bool :=
  hostname == apex || ('.' :: apex.toList).isSuffixOf hostname.toList ||
    match label with
    | none => false
    | some label => (hostname.toList.splitOn '.').contains label.toList

/-- The splits of a list, the longest first part first, as a greedy match tries them. -/
def greedySplits (parts : List String) : List (List String × List String) :=
  (List.range (parts.length + 1)).reverse.map fun i ↦ (parts.take i, parts.drop i)

/-- The repository path in front of a marker, and the number behind it. -/
def matchRepository (marker : List String) (repositoryOk : List String → Bool)
    (parts : List String) : Option (String × String) :=
  (greedySplits parts).findSome? fun (front, back) ↦
    match back.drop marker.length with
    | number :: _ =>
      if front.all (· ≠ "") ∧ repositoryOk front ∧ marker <+: back
          ∧ (naturalNumber? number).isSome then some (joinSegments front, number) else none
    | [] => none

variable (js : JsRuntime)

def claim (host : String) (found : Option (String × String)) : Option ChangeRequestLink := do
  let (repository, number) ← found
  let number ← naturalNumber? number
  if number ≤ maxSafeInteger ∧ 0 < number then
    some { host, repository := js.toLowerCase repository, number }
  else none

/-- **The repository and the number behind a change request URL**, `none` for any other URL. Each
host is recognised by the path shape it alone uses. -/
def parseChangeRequestUrl (targetUrl : String) : Option ChangeRequestLink := do
  let url ← js.parseUrl targetUrl
  if url.protocol ≠ "https:" ∧ url.protocol ≠ "http:" then none
  let host := js.toLowerCase url.hostname
  match segments url.pathname with
  | "" :: parts =>
    let pair (front : List String) := front.length == 2
    let several (front : List String) := decide (2 ≤ front.length)
    let github := if isHostOf host "github.com" (some "github")
      then matchRepository ["pull"] pair parts else none
    if github.isSome then claim js host github
    else
      let forgejo := matchRepository ["pulls"] several parts
      if forgejo.isSome then
        (claim js host forgejo).map ({ · with authority := some (js.toLowerCase url.host) })
      else
        let gitlab := matchRepository ["-", "merge_requests"] several parts
        if gitlab.isSome then claim js host gitlab
        else if isHostOf host "bitbucket.org" (some "bitbucket") then
          claim js host (matchRepository ["pull-requests"] pair parts)
        else if isHostOf host "dev.azure.com" ||
            ".visualstudio.com".toList.isSuffixOf host.toList then
          claim js host (matchRepository ["pullrequest"] (fun front ↦
            decide (2 ≤ front.length) && front.dropLast.getLast? == some "_git") parts)
        else none
  | _ => none

end Awen
