import Awen.Orchestration.LinkAgreement

/-!
# Dismissed pull request links

Links of a thread have pairwise different normalised keys, whatever events are folded into the read
model: `LogEntry` puts the events of old logs, whose metadata updates still carry a single link,
between the commands. Unlinking a member of a native stack leaves a tombstone in its place, and no
stack-sourced link command brings the member back while the tombstone stands. A link that is not
known to be a member is removed without one: `unlinkThenStack` is a run in which the stack brings
it back.
-/

namespace Awen.Orchestration

variable {js : JsRuntime}

/-! ## Commands and old events -/

/-- A command, or a metadata update from a log that was written before threads had several
links. -/
inductive LogEntry
  | command (dispatch : Dispatch)
  | legacy (threadId : ThreadId) (occurredAt : IsoDateTime) (payload : ThreadMetaUpdatedPayload)

/-- **The command model over old logs**: an old event is folded into the read model as it is. -/
def linkModel (js : JsRuntime) : EventSourced OrchestrationReadModel LogEntry
    PlannedOrchestrationEvent OrchestrationCommandRejection where
  prepare model
    | .command dispatch => (commandModel js).prepare model dispatch
    | .legacy .. => model
  decide model
    | .command dispatch => (commandModel js).decide model dispatch
    | .legacy threadId occurredAt payload =>
      .ok [threadEvent "legacy" threadId occurredAt (.metaUpdated payload)]
  evolve := (commandModel js).evolve

/-- Every command and every old event. -/
def anyEntry : OrchestrationReadModel → LogEntry → Prop := fun _ _ ↦ True

instance (model : OrchestrationReadModel) (entry : LogEntry) : Decidable (anyEntry model entry) :=
  inferInstanceAs (Decidable True)

/-! ## Keys stay distinct -/

section Patches

variable {projects : List OrchestrationProject} {occurredAt : IsoDateTime} {threadId : ThreadId}
  {thread entry : OrchestrationThread} {payload : ThreadEventPayload}
  {key : ThreadPullRequestKey}

/-- The link that a single link of old clients stands for. -/
def legacyLink (js : JsRuntime) (project : Option OrchestrationProject)
    (linked : ThreadLinkedPullRequest) (linkedAt : IsoDateTime) : ThreadPullRequestLink where
  toThreadPullRequestKey := legacyThreadPullRequestKey js linked.repository linked.number
    linked.url (some (legacyPullRequestHost js project linked))
  url := linked.url
  source := .manual
  linkedAt
  snapshot := none
  stack := none

theorem legacyLinkToPullRequests_some (links : List ThreadPullRequestLink)
    (project : Option OrchestrationProject) (linked : ThreadLinkedPullRequest)
    (linkedAt : IsoDateTime) :
    legacyLinkToPullRequests js links project (some linked) linkedAt =
      upsertPullRequestLink js (links.filter (·.source ≠ .manual))
        (legacyLink js project linked linkedAt) := rfl

/-- What an event with a single link makes of the links. -/
theorem pullRequests_threadPatch_metaUpdated {payload : ThreadMetaUpdatedPayload}
    {linked : Option ThreadLinkedPullRequest} (h : payload.linkedPullRequest = some linked) :
    (threadPatch js projects occurredAt thread (.metaUpdated payload) entry).pullRequests =
      legacyLinkToPullRequests js thread.pullRequests (findProject projects thread.projectId)
        linked payload.updatedAt := by
  simp only [threadPatch, h, pullRequestsPatch]

/-- A sync keeps the keys of links. -/
theorem linkKey_synced (key : ThreadPullRequestKey) (snapshot : ThreadPullRequestSnapshot)
    (stack : Option ThreadPullRequestStack) (link : ThreadPullRequestLink) :
    linkKey js (if linkHasKey js key link then { link with snapshot := some snapshot, stack }
      else link) = linkKey js link := by
  split <;> rfl

/-- **An event keeps the keys of a thread's links distinct.** -/
theorem distinctLinks_threadPatch (hthread : DistinctLinks js thread.pullRequests)
    (hentry : DistinctLinks js entry.pullRequests) :
    DistinctLinks js (threadPatch js projects occurredAt thread payload entry).pullRequests := by
  by_cases hchanges : payload.changesLinks = false
  · rw [pullRequests_threadPatch hchanges]
    exact hentry
  cases payload <;> simp only [ThreadEventPayload.changesLinks, not_true_eq_false] at hchanges
  case metaUpdated payload =>
    obtain ⟨linked, hlinked⟩ := Option.isSome_iff_exists.mp (eq_true_of_ne_false hchanges)
    rw [pullRequests_threadPatch_metaUpdated hlinked]
    cases linked with
    | none => exact hthread.filter _
    | some linked => exact (replaced_upsertPullRequestLink (hthread.filter _)).distinct
  case pullRequestLinked link updatedAt => exact (replaced_upsertPullRequestLink hthread).distinct
  case pullRequestUnlinked key updatedAt => exact (removed_removePullRequestLink hthread).distinct
  case pullRequestSynced key snapshot stack updatedAt =>
    simp only [threadPatch]
    split
    · have hkeys : linkKey js ∘ (fun link ↦ if linkHasKey js key link then
          { link with snapshot := some snapshot, stack } else link) = linkKey js := by
        funext link
        rw [Function.comp_apply, linkKey_synced]
      simp only [pullRequestsPatch, DistinctLinks, List.map_map, hkeys]
      exact hthread
    · exact hentry

/-- The links of every thread have distinct keys. -/
def LinksDistinct (js : JsRuntime) (model : OrchestrationReadModel) : Prop :=
  ∀ thread ∈ model.threads, DistinctLinks js thread.pullRequests

theorem LinksDistinct.evolve {model : OrchestrationReadModel} (h : LinksDistinct js model)
    (event : PlannedOrchestrationEvent) :
    LinksDistinct js ((commandModel js).evolve model event) := by
  cases hpayload : event.payload with
  | project projectId payload =>
    rw [LinksDistinct, threads_evolve_project hpayload]
    exact h
  | thread threadId payload =>
    have hthreads : ((commandModel js).evolve model event).threads =
        projectThreadEvent js model.projects event.occurredAt threadId payload model.threads := by
      simp only [commandModel, projectEvent, hpayload]
    rw [LinksDistinct, hthreads]
    intro t ht
    by_cases hcreated : ∃ created, payload = .created created
    · obtain ⟨created, rfl⟩ := hcreated
      simp only [projectThreadEvent, putThread, updateThread] at ht
      split at ht
      · obtain ⟨t', ht', rfl⟩ := List.mem_map.mp ht
        split
        · exact List.nodup_nil
        · exact h t' ht'
      · rcases List.mem_append.mp ht with ht | ht
        · exact h t ht
        · rw [List.mem_singleton.mp ht]
          exact List.nodup_nil
    · rw [projectThreadEvent.eq_def] at ht
      split at ht
      · exact absurd ⟨_, rfl⟩ hcreated
      · split at ht
        · exact h t ht
        · rename_i thread hfind
          obtain ⟨t', ht', rfl⟩ := List.mem_map.mp ht
          split
          · exact distinctLinks_threadPatch (h thread (findThread_eq_some hfind).1) (h t' ht')
          · exact h t' ht'

theorem linksDistinct_of_reaches {ok : OrchestrationReadModel → LogEntry → Prop}
    {start model : OrchestrationReadModel} {log : List PlannedOrchestrationEvent}
    (h : (linkModel js).Reaches ok start model log) (hstart : LinksDistinct js start) :
    LinksDistinct js model := by
  refine h.invariant hstart fun model entry events hmodel _ _ ↦ ?_
  refine EventSourced.fold_invariant (P := LinksDistinct js) (E := fun _ ↦ True)
    (fun m e hm _ ↦ hm.evolve e) (fun _ _ ↦ trivial) ?_
  cases entry with
  | command dispatch =>
    rw [LinksDistinct]
    simp only [linkModel, commandModel, threads_resolveRepositoryIdentity]
    exact hmodel
  | legacy => exact hmodel

/-! ## Tombstones -/

/-- A link of the thread with a key is a tombstone. -/
def Dismissed (js : JsRuntime) (key : ThreadPullRequestKey)
    (links : List ThreadPullRequestLink) : Prop :=
  ∃ link ∈ links, linkKey js link = key ∧ link.source = .stackDismissed

/-- An event of the thread that takes the link with a key away, or puts one in its place that is no
tombstone. -/
def Revives (js : JsRuntime) (projects : List OrchestrationProject) (projectId : ProjectId)
    (key : ThreadPullRequestKey) : ThreadEventPayload → Prop
  | .created _ => True
  | .pullRequestLinked link _ => linkKey js link = key ∧ link.source ≠ .stackDismissed
  | .pullRequestUnlinked unlinked _ => normalKey js unlinked = key
  | .metaUpdated payload =>
    match payload.linkedPullRequest with
    | some (some linked) =>
      linkKey js (legacyLink js (findProject projects projectId) linked payload.updatedAt) = key
    | _ => False
  | _ => False

instance (projects : List OrchestrationProject) (projectId : ProjectId)
    (payload : ThreadEventPayload) : Decidable (Revives js projects projectId key payload) :=
  decidable_of_iff
    ((match payload with
      | .created _ => true
      | .pullRequestLinked link _ =>
        decide (linkKey js link = key ∧ link.source ≠ .stackDismissed)
      | .pullRequestUnlinked unlinked _ => decide (normalKey js unlinked = key)
      | .metaUpdated payload =>
        match payload.linkedPullRequest with
        | some (some linked) => decide (linkKey js
            (legacyLink js (findProject projects projectId) linked payload.updatedAt) = key)
        | _ => false
      | _ => false) = true)
    (by unfold Revives; repeat' split
        all_goals simp)

/-- A tombstone is not replaced by a link with another key. -/
theorem Dismissed.upsert {links : List ThreadPullRequestLink} {link : ThreadPullRequestLink}
    (h : Dismissed js key links) (hdistinct : DistinctLinks js links)
    (hlink : linkKey js link = key → link.source = .stackDismissed) :
    Dismissed js key (upsertPullRequestLink js links link) := by
  have hreplaced : Replaced js links link (upsertPullRequestLink js links link) :=
    replaced_upsertPullRequestLink hdistinct
  obtain ⟨tombstone, htombstone, hkey, hsource⟩ := h
  by_cases hsame : linkKey js link = key
  · exact ⟨link, (hreplaced.mem_iff link).mpr (.inl rfl), hsame, hlink hsame⟩
  · refine ⟨tombstone, (hreplaced.mem_iff tombstone).mpr (.inr ⟨htombstone, ?_⟩), hkey, hsource⟩
    exact fun heq ↦ hsame (heq ▸ hkey)

/-- **A tombstone stays through every event that does not revive its link.** -/
theorem Dismissed.threadPatch (h : Dismissed js key thread.pullRequests)
    (hdistinct : DistinctLinks js thread.pullRequests)
    (hrevives : ¬Revives js projects thread.projectId key payload) :
    Dismissed js key
      (threadPatch js projects occurredAt thread payload thread).pullRequests := by
  by_cases hchanges : payload.changesLinks = false
  · rw [pullRequests_threadPatch hchanges]
    exact h
  cases payload <;> simp only [ThreadEventPayload.changesLinks, not_true_eq_false] at hchanges
  case metaUpdated payload =>
    obtain ⟨linked, hlinked⟩ := Option.isSome_iff_exists.mp (eq_true_of_ne_false hchanges)
    rw [pullRequests_threadPatch_metaUpdated hlinked]
    -- a tombstone is no manual link
    have hkept : Dismissed js key (thread.pullRequests.filter (·.source ≠ .manual)) := by
      obtain ⟨tombstone, htombstone, hkey, hsource⟩ := h
      exact ⟨tombstone, List.mem_filter.mpr ⟨htombstone, by simp [hsource]⟩, hkey, hsource⟩
    cases linked with
    | none => exact hkept
    | some linked =>
      rw [legacyLinkToPullRequests_some]
      refine hkept.upsert (hdistinct.filter _) fun hkey ↦ absurd ?_ hrevives
      simpa only [Revives, hlinked] using hkey
  case pullRequestLinked link updatedAt =>
    exact h.upsert hdistinct fun hkey ↦ by_contra fun hsource ↦ hrevives ⟨hkey, hsource⟩
  case pullRequestUnlinked unlinked updatedAt =>
    obtain ⟨tombstone, htombstone, hkey, hsource⟩ := h
    refine ⟨tombstone, ((removed_removePullRequestLink hdistinct).mem_iff tombstone).mpr
      ⟨htombstone, ?_⟩, hkey, hsource⟩
    exact fun heq ↦ hrevives (heq.symm.trans hkey)
  case pullRequestSynced synced snapshot stack updatedAt =>
    simp only [Awen.Orchestration.threadPatch]
    split
    · obtain ⟨tombstone, htombstone, hkey, hsource⟩ := h
      refine ⟨_, List.mem_map_of_mem htombstone, ?_, ?_⟩
      · exact (linkKey_synced synced snapshot stack tombstone).trans hkey
      · split <;> exact hsource
    · exact h

end Patches

/-! ## Which links commands plan -/

section Decide

variable {readModel : OrchestrationReadModel} {context : DecisionContext} {commandId : CommandId}
  {threadId : ThreadId} {events : List PlannedOrchestrationEvent}

/-- The link that a link command asks for. -/
theorem decidePullRequestLink_eq_ok {key : ThreadPullRequestKey} {url : String}
    {source : ThreadPullRequestLinkSource}
    (h : decidePullRequestLink js readModel context commandId threadId key url source =
      .ok events) :
    ∃ thread link, findThread readModel.threads threadId = some thread ∧ link.source = source ∧
      events = [threadEvent commandId threadId context.now (.pullRequestLinked link context.now)] ∧
      (source = .stack → findPullRequestLink js thread (normalizeThreadPullRequestKey js
          { toThreadPullRequestKey := key, url := some url }) = none ∧
        link.toThreadPullRequestKey = normalizeThreadPullRequestKey js
          { toThreadPullRequestKey := key, url := some url } ∧ link.url = url) := by
  simp only [decidePullRequestLink, requireThread_bind_eq_ok, ensure_bind_eq_ok] at h
  obtain ⟨thread, hfind, hfree, h⟩ := h
  obtain rfl := pure_eq_ok.mp h
  refine ⟨thread, _, hfind, ?_, rfl, ?_⟩
  · split <;> rfl
  · rintro rfl
    -- a stack does not bring a dismissed member back, so that no link has the key
    have hnone := hfree.resolve_right (by simp)
    rw [Option.isNone_iff_eq_none] at hnone
    rw [hnone]
    exact ⟨rfl, rfl, rfl⟩

/-- What unlinking leaves behind. -/
theorem decidePullRequestUnlink_eq_ok {key : ThreadPullRequestKey}
    (h : decidePullRequestUnlink js readModel context commandId threadId key = .ok events) :
    ∃ thread existing, findThread readModel.threads threadId = some thread ∧
      findPullRequestLink js thread (normalKey js key) = some existing ∧
      events = [threadEvent commandId threadId context.now
        (if belongsToStack js thread (normalKey js key) existing
          then .pullRequestLinked { existing with source := .stackDismissed } context.now
          else .pullRequestUnlinked (normalKey js key) context.now)] := by
  simp only [decidePullRequestUnlink, requireThread_bind_eq_ok, expect_bind_eq_ok] at h
  obtain ⟨thread, hfind, existing, hexisting, h⟩ := h
  exact ⟨thread, existing, hfind, hexisting, (pure_eq_ok.mp h).symm⟩

/-- Links that these events add do not come from a stack. -/
def NoStackLinks (events : List PlannedOrchestrationEvent) : Prop :=
  ∀ event ∈ events, ∀ threadId link at',
    event.payload = .thread threadId (.pullRequestLinked link at') → link.source ≠ .stack

theorem noStackLinks_of_planned {types : List String}
    (htypes : "thread.pull-request-linked" ∉ types)
    (h : ∀ event ∈ events, Planned commandId threadId types event) : NoStackLinks events := by
  intro event he id link at' hpayload
  obtain ⟨payload, hthread, htype⟩ := (h event he).payload
  rw [hthread] at hpayload
  obtain ⟨-, rfl⟩ := OrchestrationEventPayload.thread.inj hpayload
  exact absurd htype htypes

theorem noStackLinks_unlink {key : ThreadPullRequestKey}
    (h : decidePullRequestUnlink js readModel context commandId threadId key = .ok events) :
    NoStackLinks events := by
  obtain ⟨thread, existing, -, -, rfl⟩ := decidePullRequestUnlink_eq_ok h
  intro event he id link at' hpayload
  rw [List.mem_singleton.mp he] at hpayload
  simp only [threadEvent, OrchestrationEventPayload.thread.injEq] at hpayload
  obtain ⟨-, hpayload⟩ := hpayload
  split at hpayload
  · obtain ⟨rfl, -⟩ := ThreadEventPayload.pullRequestLinked.inj hpayload
    simp
  · cases hpayload

theorem noStackLinks_link {key : ThreadPullRequestKey} {url : String}
    {source : ThreadPullRequestLinkSource} (hsource : source ≠ .stack)
    (h : decidePullRequestLink js readModel context commandId threadId key url source =
      .ok events) : NoStackLinks events := by
  obtain ⟨thread, link, -, hlink, rfl, -⟩ := decidePullRequestLink_eq_ok h
  intro event he id link' at' hpayload
  rw [List.mem_singleton.mp he] at hpayload
  obtain ⟨-, hpayload⟩ := OrchestrationEventPayload.thread.inj hpayload
  obtain ⟨rfl, -⟩ := ThreadEventPayload.pullRequestLinked.inj hpayload
  rwa [hlink]

/-- The commands that a metadata update may be carried out as. -/
def LinkEdit (threadId : ThreadId) (body : OrchestrationCommandBody) : Prop :=
  (∃ update : ThreadMetaUpdate, update.linkedPullRequest = none ∧
      body = .thread threadId (.metaUpdate update)) ∨
    (∃ key, body = .thread threadId (.pullRequestUnlink key)) ∨
    ∃ key url, body = .thread threadId (.pullRequestLink key url .manual)

theorem noStackLinks_linkEdit {clock : ℕ → IsoDateTime} {commands : List OrchestrationCommandBody}
    (hcommands : ∀ body ∈ commands, LinkEdit threadId body)
    (h : decideCommandSequence js commandId clock readModel commands = .ok events) :
    NoStackLinks events := by
  induction commands generalizing clock readModel events with
  | nil =>
    obtain rfl := pure_eq_ok.mp h
    exact List.forall_mem_nil _
  | cons body commands ih =>
    simp only [decideCommandSequence, bind_eq_ok, pure_eq_ok] at h
    obtain ⟨first, hfirst, rest, hrest, rfl⟩ := h
    have hnone : NoStackLinks first := by
      obtain ⟨update, hlinked, rfl⟩ | ⟨key, rfl⟩ | ⟨key, url, rfl⟩ :=
        hcommands body List.mem_cons_self
      · simp only [decideSimpleCommand, decideWith, decideThreadCommand, decideMetaUpdate,
          requireThread_bind_eq_ok, hlinked] at hfirst
        obtain ⟨thread, -, hfirst⟩ := hfirst
        obtain rfl := pure_eq_ok.mp hfirst
        exact noStackLinks_of_planned (by simp [ThreadEventPayload.type]) planned_single
      · exact noStackLinks_unlink hfirst
      · exact noStackLinks_link (by simp) hfirst
    have hnoneRest : NoStackLinks rest :=
      ih (fun b hb ↦ hcommands b (List.mem_cons_of_mem _ hb)) hrest
    exact fun event he ↦ (List.mem_append.mp he).elim (hnone event) (hnoneRest event)

/-- **Only a stack-sourced link command plans a link from a stack.** -/
theorem noStackLinks_of_decide {clock : ℕ → IsoDateTime}
    {userInputActivity : Option OrchestrationThreadActivity} {command : ThreadCommand}
    (hcommand : ∀ key url, command ≠ .pullRequestLink key url .stack)
    (h : decideOrchestrationCommand js readModel clock userInputActivity
      ⟨commandId, .thread threadId command⟩ = .ok events) : NoStackLinks events := by
  by_cases htypes : "thread.pull-request-linked" ∈ command.emits
  · cases command <;> simp only [ThreadCommand.emits, List.mem_cons, List.not_mem_nil,
      String.reduceEq, or_false, or_self] at htypes
    case pullRequestLink key url source =>
      exact noStackLinks_link (fun hsource ↦ hcommand key url (by rw [hsource])) h
    case pullRequestUnlink key => exact noStackLinks_unlink h
    case metaUpdate update =>
      simp only [decideOrchestrationCommand, decideWith, decideThreadCommand, decideMetaUpdate,
        requireThread_bind_eq_ok] at h
      obtain ⟨thread, -, h⟩ := h
      have hmetadata : ∀ body ∈ (if update.hasMetadata then [OrchestrationCommandBody.thread
          threadId (.metaUpdate { update with linkedPullRequest := none })] else []),
          LinkEdit threadId body := by
        intro body hbody
        simp only [List.mem_ite_nil_right, List.mem_singleton] at hbody
        exact .inl ⟨_, by rfl, hbody.2⟩
      split at h
      · refine noStackLinks_linkEdit (fun body hbody ↦ (?_ : LinkEdit threadId body)) h
        simp only [List.mem_append, List.mem_map, List.mem_singleton] at hbody
        rcases hbody with (hbody | ⟨link, -, rfl⟩) | rfl
        · exact hmetadata body hbody
        · exact .inr (.inl ⟨_, rfl⟩)
        · exact .inr (.inr ⟨_, _, rfl⟩)
      · refine noStackLinks_linkEdit (fun body hbody ↦ (?_ : LinkEdit threadId body)) h
        rcases List.mem_append.mp hbody with hbody | hbody
        · exact hmetadata body hbody
        · exact .inr (.inl ⟨_, List.mem_singleton.mp hbody⟩)
      · obtain rfl := pure_eq_ok.mp h
        exact noStackLinks_of_planned (by simp [ThreadEventPayload.type]) planned_single
  · exact noStackLinks_of_planned htypes (planned_of_decide h)

end Decide

/-! ## Runs -/

/-- An event of the thread that revives a link, and does not come from a stack. -/
def Readmits (js : JsRuntime) (threadId : ThreadId) (key : ThreadPullRequestKey)
    (model : OrchestrationReadModel) (event : PlannedOrchestrationEvent) : Prop :=
  match findThread model.threads threadId, event.payload with
  | some thread, .thread id payload => id = threadId ∧
      Revives js model.projects thread.projectId key payload ∧
      match payload with
      | .pullRequestLinked link _ => link.source ≠ .stack
      | _ => True
  | _, _ => False

instance (threadId : ThreadId) (key : ThreadPullRequestKey) (model : OrchestrationReadModel)
    (event : PlannedOrchestrationEvent) : Decidable (Readmits js threadId key model event) :=
  decidable_of_iff
    ((match findThread model.threads threadId, event.payload with
      | some thread, .thread id payload =>
        decide (id = threadId ∧ Revives js model.projects thread.projectId key payload) &&
          match payload with
          | .pullRequestLinked link _ => decide (link.source ≠ .stack)
          | _ => true
      | _, _ => false) = true)
    (by unfold Readmits; repeat' split
        all_goals simp [and_assoc])

/-- The key that a link command normalises a key and a URL to. -/
abbrev commandKey (js : JsRuntime) (key : ThreadPullRequestKey) (url : String) :
    ThreadPullRequestKey :=
  normalizeThreadPullRequestKey js { toThreadPullRequestKey := key, url := some url }

/-- The key of a link command stays the same when it is normalised again, with the URL and
without. -/
def CommandKeySettled (js : JsRuntime) (key : ThreadPullRequestKey) (url : String) : Prop :=
  commandKey js (commandKey js key url) url = commandKey js key url ∧
    normalKey js (commandKey js key url) = commandKey js key url

/-- If the entry is a stack-sourced link command for the thread, its key is settled. -/
def stackKeySettled (js : JsRuntime) (threadId : ThreadId) : LogEntry → Prop
  | .command dispatch =>
    match dispatch.command.body with
    | .thread id (.pullRequestLink key url .stack) => id = threadId → CommandKeySettled js key url
    | _ => True
  | .legacy .. => True

/-- A condition under which a tombstone stays: no event readmits the link. -/
def keepsDismissed (js : JsRuntime) (threadId : ThreadId) (key : ThreadPullRequestKey) :
    OrchestrationReadModel → LogEntry → Prop := fun model entry ↦
  stackKeySettled js threadId entry ∧
    ∀ events, (linkModel js).decide ((linkModel js).prepare model entry) entry = .ok events →
      EveryStep (linkModel js).evolve (fun model event ↦ ¬Readmits js threadId key model event)
        ((linkModel js).prepare model entry) events

/-- The thread has a tombstone for a key. -/
def DismissedIn (js : JsRuntime) (threadId : ThreadId) (key : ThreadPullRequestKey)
    (model : OrchestrationReadModel) : Prop :=
  ∃ thread, findThread model.threads threadId = some thread ∧
    DistinctLinks js thread.pullRequests ∧ Dismissed js key thread.pullRequests

section Runs

variable {threadId : ThreadId} {key : ThreadPullRequestKey} {model : OrchestrationReadModel}
  {event : PlannedOrchestrationEvent} {events : List PlannedOrchestrationEvent}

theorem DismissedIn.congr (h : DismissedIn js threadId key model) {model' : OrchestrationReadModel}
    (hthreads : model'.threads = model.threads) : DismissedIn js threadId key model' := by
  rw [DismissedIn, hthreads]
  exact h

/-- An event that does not create its thread patches it. -/
private theorem findThread_evolve_of_ne_created {payload : ThreadEventPayload}
    {thread : OrchestrationThread} (hpayload : event.payload = .thread threadId payload)
    (hcreated : ∀ created, payload ≠ .created created)
    (hfind : findThread model.threads threadId = some thread) :
    findThread ((commandModel js).evolve model event).threads threadId =
      some (threadPatch js model.projects event.occurredAt thread payload thread) := by
  rw [findThread_evolve hpayload, if_pos rfl, hfind]
  cases payload
  case created created => exact absurd rfl (hcreated created)
  all_goals rfl

theorem DismissedIn.evolve (h : DismissedIn js threadId key model)
    (hreadmits : ¬Readmits js threadId key model event)
    (hstack : ∀ link at', event.payload = .thread threadId (.pullRequestLinked link at') →
      link.source = .stack → linkKey js link ≠ key) :
    DismissedIn js threadId key ((commandModel js).evolve model event) := by
  obtain ⟨thread, hfind, hdistinct, hdismissed⟩ := h
  cases hpayload : event.payload with
  | project projectId payload =>
    exact DismissedIn.congr ⟨thread, hfind, hdistinct, hdismissed⟩ (threads_evolve_project hpayload)
  | thread id payload =>
    by_cases hid : threadId = id
    · subst hid
      have hrevives : ¬Revives js model.projects thread.projectId key payload := by
        intro hrevives
        refine hreadmits ?_
        simp only [Readmits, hfind, hpayload, true_and]
        refine ⟨hrevives, ?_⟩
        split
        · rename_i link at'
          exact fun hsource ↦ hstack link at' hpayload hsource hrevives.1
        · trivial
      have hcreated : ∀ created, payload ≠ .created created := by
        rintro created rfl
        exact hrevives trivial
      exact ⟨_, findThread_evolve_of_ne_created hpayload hcreated hfind,
        distinctLinks_threadPatch hdistinct hdistinct,
        hdismissed.threadPatch hdistinct hrevives⟩
    · refine ⟨thread, ?_, hdistinct, hdismissed⟩
      rw [findThread_evolve hpayload, if_neg hid]
      exact hfind

/-- A stack-sourced link command does not find its link free while there is a tombstone. -/
theorem DismissedIn.ne_commandKey (h : DismissedIn js threadId key model)
    {thread : OrchestrationThread} (hfind : findThread model.threads threadId = some thread)
    {commanded : ThreadPullRequestKey} {url : String}
    (hsettled : CommandKeySettled js commanded url)
    (hfree : findPullRequestLink js thread (commandKey js commanded url) = none) :
    commandKey js commanded url ≠ key := by
  rintro rfl
  obtain ⟨_, hfind', -, tombstone, htombstone, hkey, -⟩ := h
  obtain rfl := Option.some_inj.mp (hfind.symm.trans hfind')
  have hother := List.find?_eq_none.mp hfree tombstone htombstone
  rw [linkHasKey_eq, decide_eq_true_eq] at hother
  exact hother (hkey.trans hsettled.2.symm)

/-- What a command with a settled key plans leaves a tombstone to the user. -/
theorem DismissedIn.of_decide (h : DismissedIn js threadId key model) {dispatch : Dispatch}
    (hsettled : stackKeySettled js threadId (.command dispatch))
    (hdecided : (commandModel js).decide ((commandModel js).prepare model dispatch) dispatch =
      .ok events) : ∀ event ∈ events, ∀ link at',
        event.payload = .thread threadId (.pullRequestLinked link at') → link.source = .stack →
          linkKey js link ≠ key := by
  have hthreads : ((commandModel js).prepare model dispatch).threads = model.threads :=
    threads_resolveRepositoryIdentity model dispatch
  obtain ⟨⟨commandId, body⟩, clock, userInputActivity, repositoryIdentity⟩ := dispatch
  intro event he link at' hpayload hsource
  cases body with
  | project projectId command =>
    obtain ⟨_, payload, -, rfl⟩ | ⟨deletions, now, rfl, hdeletions, -⟩ :=
      decide_project_eq_ok hdecided
    · rw [List.mem_singleton.mp he] at hpayload
      cases hpayload
    · rcases List.mem_append.mp he with he | he
      · obtain ⟨_, _, rfl⟩ := hdeletions event he
        cases hpayload
      · rw [List.mem_singleton.mp he] at hpayload
        cases hpayload
  | thread id command =>
    by_cases hstack : ∃ commanded url, command = .pullRequestLink commanded url .stack
    · obtain ⟨commanded, url, rfl⟩ := hstack
      obtain ⟨thread, link', hfind, -, rfl, hlink'⟩ := decidePullRequestLink_eq_ok hdecided
      rw [List.mem_singleton.mp he] at hpayload
      simp only [threadEvent, OrchestrationEventPayload.thread.injEq,
        ThreadEventPayload.pullRequestLinked.injEq] at hpayload
      obtain ⟨rfl, rfl, -⟩ := hpayload
      obtain ⟨hfree, hcommanded, hurl⟩ := hlink' rfl
      rw [hthreads] at hfind
      have hkeySettled : CommandKeySettled js commanded url := hsettled rfl
      have hne := h.ne_commandKey hfind hkeySettled hfree
      have hlinkKey : linkKey js link' = commandKey js commanded url := by
        rw [linkKey, keySourceOfLink, hcommanded, hurl]
        exact hkeySettled.1
      rwa [hlinkKey]
    · exact absurd hsource (noStackLinks_of_decide (fun commanded url heq ↦
        hstack ⟨commanded, url, heq⟩) hdecided event he _ link at' hpayload)

/-- **A tombstone stays in every run that does not readmit its link.** -/
theorem DismissedIn.of_reaches {model' : OrchestrationReadModel}
    {log : List PlannedOrchestrationEvent} (h : DismissedIn js threadId key model)
    (hreaches : (linkModel js).Reaches (keepsDismissed js threadId key) model model' log) :
    DismissedIn js threadId key model' := by
  refine hreaches.invariant h fun s entry events hs hkeeps hdecided ↦ ?_
  obtain ⟨hsettled, hevents⟩ := hkeeps
  have hstack : ∀ event ∈ events, ∀ link at',
      event.payload = .thread threadId (.pullRequestLinked link at') → link.source = .stack →
        linkKey js link ≠ key := by
    cases entry with
    | command dispatch => exact hs.of_decide hsettled hdecided
    | legacy id occurredAt payload =>
      obtain rfl := Except.ok.inj hdecided
      intro event he link at' hpayload
      rw [List.mem_singleton.mp he] at hpayload
      cases hpayload
  refine (hevents events hdecided).and_mem.foldl_invariant (P := DismissedIn js threadId key)
    (fun m event hm hevent ↦ hm.evolve hevent.1 (hstack event hevent.2)) ?_
  cases entry with
  | command dispatch => exact hs.congr (threads_resolveRepositoryIdentity s dispatch)
  | legacy => exact hs

/-- Unlinking a member of a native stack leaves a tombstone. -/
theorem dismissedIn_of_unlink (hmodel : LinksDistinct js model) {thread : OrchestrationThread}
    {existing : ThreadPullRequestLink} {commanded : ThreadPullRequestKey}
    (hfind : findThread model.threads threadId = some thread)
    (hexisting : findPullRequestLink js thread (normalKey js commanded) = some existing)
    (hmember : belongsToStack js thread (normalKey js commanded) existing = true)
    {dispatch : Dispatch} {commandId : CommandId}
    (hdispatch : dispatch.command = ⟨commandId, .thread threadId (.pullRequestUnlink commanded)⟩)
    (hdecided : (commandModel js).decide ((commandModel js).prepare model dispatch) dispatch =
      .ok events) :
    DismissedIn js threadId (linkKey js existing)
      ((commandModel js).fold ((commandModel js).prepare model dispatch) events) := by
  have hthreads : ((commandModel js).prepare model dispatch).threads = model.threads :=
    threads_resolveRepositoryIdentity model dispatch
  simp only [commandModel, hdispatch] at hdecided
  obtain ⟨thread', existing', hfind', hexisting', rfl⟩ := decidePullRequestUnlink_eq_ok hdecided
  obtain rfl := Option.some_inj.mp (hfind.symm.trans (hthreads ▸ hfind'))
  obtain rfl := Option.some_inj.mp (hexisting.symm.trans hexisting')
  have hdistinct : DistinctLinks js thread.pullRequests :=
    hmodel thread (findThread_eq_some hfind).1
  rw [if_pos hmember, EventSourced.fold_cons, EventSourced.fold_nil]
  refine ⟨_, findThread_evolve_of_ne_created rfl (fun _ ↦ by simp) (hthreads ▸ hfind),
    distinctLinks_threadPatch hdistinct hdistinct, ?_⟩
  exact ⟨_, ((replaced_upsertPullRequestLink hdistinct).mem_iff _).mpr (.inl rfl), rfl, rfl⟩

end Runs

/-- **Links are unique and dismissals stick.** The links of every thread of a reachable read model
have different keys. When a link is unlinked that is known to be a member of a native stack, then
only a tombstone has its key in every run that does not readmit it, and every stack-sourced link
command for it is refused. -/
theorem pullRequests_of_reaches {nowIso : IsoDateTime} {model : OrchestrationReadModel}
    {log : List PlannedOrchestrationEvent}
    (h : (linkModel js).Reaches anyEntry (createEmptyReadModel nowIso) model log) :
    (∀ thread ∈ model.threads, (thread.pullRequests.map (linkKey js)).Nodup) ∧
    ∀ threadId thread key existing, findThread model.threads threadId = some thread →
      findPullRequestLink js thread (normalKey js key) = some existing →
      belongsToStack js thread (normalKey js key) existing = true →
      ∀ (unlink : Dispatch) commandId unlinked,
        unlink.command = ⟨commandId, .thread threadId (.pullRequestUnlink key)⟩ →
        (linkModel js).step model (.command unlink) = .ok unlinked →
        ∀ later events, (linkModel js).Reaches
            (keepsDismissed js threadId (linkKey js existing)) unlinked later events →
          (∃ thread, findThread later.threads threadId = some thread ∧
            ∀ link ∈ thread.pullRequests, linkKey js link = linkKey js existing →
              link.source = .stackDismissed) ∧
          ∀ (dispatch : Dispatch) commandId key url,
            dispatch.command = ⟨commandId, .thread threadId (.pullRequestLink key url .stack)⟩ →
            CommandKeySettled js key url → commandKey js key url = linkKey js existing →
            ∀ next, (linkModel js).step later (.command dispatch) ≠ .ok next := by
  have hmodel : LinksDistinct js model :=
    linksDistinct_of_reaches h fun thread hthread ↦ nomatch hthread
  refine ⟨hmodel, fun threadId thread key existing hfind hexisting hmember unlink commandId unlinked
    hunlink hstep later events hlater ↦ ?_⟩
  have hdismissed : DismissedIn js threadId (linkKey js existing) unlinked := by
    obtain ⟨planned, hdecided, rfl⟩ := EventSourced.step_eq_ok.mp hstep
    exact dismissedIn_of_unlink hmodel hfind hexisting hmember hunlink hdecided
  have hlaterDismissed : DismissedIn js threadId (linkKey js existing) later :=
    hdismissed.of_reaches hlater
  obtain ⟨thread', hfind', hdistinct, tombstone, htombstone, hkey, hsource⟩ := hlaterDismissed
  refine ⟨⟨thread', hfind', fun link hlink hsame ↦ ?_⟩,
    fun dispatch commandId key url hdispatch hsettled hsame next hnext ↦ ?_⟩
  · rw [hdistinct.eq hlink htombstone (hsame.trans hkey.symm)]
    exact hsource
  · obtain ⟨planned, hdecided, -⟩ := EventSourced.step_eq_ok.mp hnext
    simp only [linkModel, commandModel, hdispatch] at hdecided
    obtain ⟨_, _, hfind'', -, -, hfree⟩ := decidePullRequestLink_eq_ok hdecided
    rw [threads_resolveRepositoryIdentity] at hfind''
    refine DismissedIn.ne_commandKey ⟨thread', hfind', hdistinct, tombstone, htombstone, hkey,
      hsource⟩ hfind'' hsettled (hfree rfl).1 hsame

instance (key : ThreadPullRequestKey) (url : String) : Decidable (CommandKeySettled js key url) :=
  inferInstanceAs (Decidable (_ ∧ _))

instance (threadId : ThreadId) (entry : LogEntry) :
    Decidable (stackKeySettled js threadId entry) :=
  decidable_of_iff
    ((match entry with
      | .command dispatch =>
        match dispatch.command.body with
        | .thread id (.pullRequestLink key url .stack) =>
          decide (id = threadId → CommandKeySettled js key url)
        | _ => true
      | .legacy .. => true) = true)
    (by unfold stackKeySettled; repeat' split
        all_goals simp [imp_iff_not_or])

instance (threadId : ThreadId) (key : ThreadPullRequestKey) (model : OrchestrationReadModel)
    (entry : LogEntry) : Decidable (keepsDismissed js threadId key model entry) :=
  match h : (linkModel js).decide ((linkModel js).prepare model entry) entry with
  | .error _ => decidable_of_iff (stackKeySettled js threadId entry)
      ⟨fun hsettled ↦ ⟨hsettled, fun _ hevents ↦ nomatch h.symm.trans hevents⟩, And.left⟩
  | .ok events => decidable_of_iff (stackKeySettled js threadId entry ∧
      EveryStep (linkModel js).evolve (fun model event ↦ ¬Readmits js threadId key model event)
        ((linkModel js).prepare model entry) events)
      ⟨fun hall ↦ ⟨hall.1, fun _ hevents ↦ Except.ok.inj (h.symm.trans hevents) ▸ hall.2⟩,
        fun hall ↦ ⟨hall.1, hall.2 _ h⟩⟩

/-! ## Runs with a stack of two -/

/-- The pull request of the test repository with a number. -/
def testKey (number : ℕ) : ThreadPullRequestKey := ⟨"github.com", "o/r", number⟩

/-- A command about the links of the test thread. -/
def linkCommand (second : Char) (command : ThreadCommand) : LogEntry :=
  .command (dispatchAt (String.ofList ("2026-03-01T12:00:0".toList ++ [second] ++ ".000Z".toList))
    (String.ofList ['c', second]) (.thread "t" command))

/-- The host says that the first pull request is the bottom of a stack of two. -/
def syncFirst : ThreadCommand :=
  .pullRequestLinkSync (testKey 1)
    { state := .opened, title := "One", headBranch := "one", baseBranch := "main", isDraft := false
      updatedAt := none, syncedAt := "2026-03-01T12:00:05.000Z" }
    (some {
      id := "s", number := 1, url := "https://github.com/o/r/stack/1", base := "main"
      layers := [⟨1, "one", .opened⟩, ⟨2, "two", .opened⟩] })

def testUrl (number : ℕ) : String :=
  String.ofList ("https://github.com/o/r/pull/".toList ++ (Nat.repr number).toList)

def linkAs (number : ℕ) (source : ThreadPullRequestLinkSource) : ThreadCommand :=
  .pullRequestLink (testKey number) (testUrl number) source

/-- Two links by hand; the second is unlinked, and then the host tells of the stack, which links it
again. -/
def unlinkThenStack : List LogEntry := createProjectAndThread.map .command ++
  [linkCommand '2' (linkAs 1 .manual), linkCommand '3' (linkAs 2 .manual),
    linkCommand '4' (.pullRequestUnlink (testKey 2)), linkCommand '5' syncFirst,
    linkCommand '6' (linkAs 2 .stack)]

/-- The read model after entries that are accepted if they can be. -/
def modelAfter (entries : List LogEntry) : OrchestrationReadModel :=
  ((linkModel plainRuntime).run anyEntry (createEmptyReadModel "2026-03-01T12:00:00.000Z")
    entries).1

theorem reaches_modelAfter (entries : List LogEntry) :
    ∃ log, (linkModel plainRuntime).Reaches anyEntry
      (createEmptyReadModel "2026-03-01T12:00:00.000Z") (modelAfter entries) log :=
  ⟨_, EventSourced.reaches_run _ _ _ entries⟩

/-- The numbers and the sources of all links. -/
def linksAfter (entries : List LogEntry) : List (ℕ × ThreadPullRequestLinkSource) :=
  (modelAfter entries).threads.flatMap fun thread ↦
    thread.pullRequests.map fun link ↦ (link.number, link.source)

/-- The host tells of the stack first, which links the second pull request. -/
def stackMembers : List LogEntry := createProjectAndThread.map .command ++
  [linkCommand '2' (linkAs 1 .manual), linkCommand '3' syncFirst, linkCommand '4' (linkAs 2 .stack)]

def unlinkSecond : Dispatch :=
  dispatchAt "2026-03-01T12:00:05.000Z" "c5" (.thread "t" (.pullRequestUnlink (testKey 2)))

def relinkSecond : Dispatch :=
  dispatchAt "2026-03-01T12:00:07.000Z" "c7" (.thread "t" (linkAs 2 .stack))

/-- The member is unlinked, the stack is synced once more, and its link command is refused. -/
theorem pullRequests_of_reaches_stackMembers :
    ∃ unlinked later log,
      (linkModel plainRuntime).step (modelAfter stackMembers) (.command unlinkSecond) =
        .ok unlinked ∧
      (linkModel plainRuntime).Reaches (keepsDismissed plainRuntime "t" (testKey 2)) unlinked later
        log ∧ log.length = 1 ∧
      ∀ next, (linkModel plainRuntime).step later (.command relinkSecond) ≠ .ok next := by
  have hmember : ((findThread (modelAfter stackMembers).threads "t").bind fun thread ↦
      (findPullRequestLink plainRuntime thread (normalKey plainRuntime (testKey 2))).filter
        (belongsToStack plainRuntime thread (normalKey plainRuntime (testKey 2)))).any
          (linkKey plainRuntime · = testKey 2) = true := by decide +kernel
  obtain ⟨existing, hbind, hkey⟩ := (Option.any_eq_true _ _).mp hmember
  obtain ⟨thread, hfind, hfilter⟩ := Option.bind_eq_some_iff.mp hbind
  obtain ⟨hexisting, hstack⟩ := Option.filter_eq_some_iff.mp hfilter
  obtain ⟨unlinked, hstep, hrun⟩ := EventSourced.exists_eq_ok_of_any
    (p := fun unlinked ↦ ((linkModel plainRuntime).run (keepsDismissed plainRuntime "t" (testKey 2))
      unlinked [linkCommand '6' syncFirst]).2.length == 1)
    (by decide +kernel : ((linkModel plainRuntime).step (modelAfter stackMembers)
      (.command unlinkSecond)).toOption.any _ = true)
  obtain ⟨later, log, hlater, hlog⟩ : ∃ later log, (linkModel plainRuntime).Reaches
      (keepsDismissed plainRuntime "t" (testKey 2)) unlinked later log ∧ log.length = 1 :=
    ⟨_, _, EventSourced.reaches_run _ _ _ [linkCommand '6' syncFirst], by simpa using hrun⟩
  refine ⟨unlinked, later, log, hstep, hlater, hlog, ?_⟩
  have hsame : linkKey plainRuntime existing = testKey 2 := by simpa using hkey
  have hsettled : CommandKeySettled plainRuntime (testKey 2) (testUrl 2) := by decide +kernel
  have hrelink : commandKey plainRuntime (testKey 2) (testUrl 2) = testKey 2 := by decide +kernel
  obtain ⟨log, hmodel⟩ := reaches_modelAfter stackMembers
  rw [← hsame] at hlater
  exact ((pullRequests_of_reaches hmodel).2 _ _ _ _ hfind hexisting hstack unlinkSecond "c5" unlinked
    rfl hstep _ _ hlater).2 relinkSecond "c7" (testKey 2) (testUrl 2) rfl hsettled
      (hrelink.trans hsame.symm)

/-- A stack links a pull request that the user unlinked before the host told of the stack. -/
theorem linksAfter_unlinkThenStack :
    linksAfter (unlinkThenStack.take 4) = [(1, .manual), (2, .manual)] ∧
    linksAfter (unlinkThenStack.take 5) = [(1, .manual)] ∧
    linksAfter unlinkThenStack = [(1, .manual), (2, .stack)] := by
  decide +kernel

end Awen.Orchestration
