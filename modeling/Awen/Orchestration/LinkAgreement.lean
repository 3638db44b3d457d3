import Awen.Orchestration.LifecycleAgreement

/-!
# The pull request links of a thread in three folds

The read model and the client keep the links of a thread in a list and compare them by normalised
keys; the database stores each under its normalised key. As maps from keys to what is linked the
three agree, in every run that does not touch two weak spots. A `thread.meta-updated` that carries
the single link of old clients rewrites the manual links of the server, and the client leaves its
links as they are. And the database normalises the key of a row once more before it looks for it,
which for some host names is not the key it was stored under.
-/

namespace Awen.Orchestration

variable {js : JsRuntime}

/-! ## Links as maps -/

/-- What a link says about its pull request. -/
structure LinkContent where
  url : String
  source : ThreadPullRequestLinkSource
  snapshot : Option ThreadPullRequestSnapshot
  stack : Option ThreadPullRequestStack
  deriving DecidableEq

def ThreadPullRequestLink.content (link : ThreadPullRequestLink) : LinkContent where
  url := link.url
  source := link.source
  snapshot := link.snapshot
  stack := link.stack

/-- A list of links as a map from normalised keys. -/
def linkMap (js : JsRuntime) (links : List ThreadPullRequestLink) (key : ThreadPullRequestKey) :
    Option LinkContent :=
  (links.find? (linkKey js · = key)).map ThreadPullRequestLink.content

/-- The rows of a thread as a map from the keys they are stored under. -/
def rowMap (tables : ThreadTables) (threadId : ThreadId) (key : ThreadPullRequestKey) :
    Option LinkContent :=
  (tables.pullRequests.get (threadId, key)).map fun row ↦ row.toThreadPullRequestLink.content

/-- No two links have the same key. -/
def DistinctLinks (js : JsRuntime) (links : List ThreadPullRequestLink) : Prop :=
  (links.map (linkKey js)).Nodup

theorem DistinctLinks.eq {links : List ThreadPullRequestLink} (h : DistinctLinks js links)
    {l l' : ThreadPullRequestLink} (hl : l ∈ links) (hl' : l' ∈ links)
    (hkey : linkKey js l = linkKey js l') : l = l' :=
  List.inj_on_of_nodup_map h hl hl' hkey

theorem DistinctLinks.filter {links : List ThreadPullRequestLink} (h : DistinctLinks js links)
    (p : ThreadPullRequestLink → Bool) : DistinctLinks js (links.filter p) :=
  h.sublist (List.filter_sublist.map _)

theorem DistinctLinks.find?_eq_some {links : List ThreadPullRequestLink}
    (h : DistinctLinks js links) {key : ThreadPullRequestKey} {l : ThreadPullRequestLink} :
    links.find? (linkKey js · = key) = some l ↔ l ∈ links ∧ linkKey js l = key :=
  Table.get_eq_some (t := ⟨links, h⟩)

@[simp] theorem linksEqual_eq (l l' : ThreadPullRequestLink) :
    linksEqual js l l' = decide (linkKey js l = linkKey js l') := rfl

/-- The normalised form of a bare key. -/
abbrev normalKey (js : JsRuntime) (key : ThreadPullRequestKey) : ThreadPullRequestKey :=
  normalizeThreadPullRequestKey js (keySourceOfKey key)

@[simp] theorem linkHasKey_eq (key : ThreadPullRequestKey) (l : ThreadPullRequestLink) :
    linkHasKey js key l = decide (linkKey js l = normalKey js key) := rfl

/-- The read model puts a link in the place of the one with its key. -/
theorem upsertPullRequestLink_eq (links : List ThreadPullRequestLink)
    (link : ThreadPullRequestLink) :
    upsertPullRequestLink js links link = Table.upsertRows (linkKey js) link links := by
  induction links with
  | nil => rfl
  | cons first links ih =>
    rw [upsertPullRequestLink, List.findIdx?_cons, Table.upsertRows]
    by_cases hfirst : linkKey js first = linkKey js link
    · rw [if_pos (by simpa using hfirst), if_pos hfirst]
      rfl
    · rw [if_neg (by simpa using hfirst), if_neg hfirst, ← ih, upsertPullRequestLink]
      cases links.findIdx? fun entry ↦ linksEqual js entry link <;> rfl

/-! ## The relation between the folds -/

/-- A list has the same links as another one, in any order. -/
structure SameLinks (js : JsRuntime) (links links' : List ThreadPullRequestLink) : Prop where
  distinct : DistinctLinks js links'
  mem_iff : ∀ l, l ∈ links' ↔ l ∈ links

/-- The rows of a thread are those of a list of links. -/
def StoredLinks (js : JsRuntime) (threadId : ThreadId) (links : List ThreadPullRequestLink)
    (rows : Table pullRequestRowKey) : Prop :=
  ∀ row, row ∈ rows.rows ∧ row.threadId = threadId ↔
    ∃ l ∈ links, ThreadTables.pullRequestRow js threadId l = row

@[simp] theorem pullRequestRowKey_pullRequestRow (threadId : ThreadId)
    (link : ThreadPullRequestLink) :
    pullRequestRowKey (ThreadTables.pullRequestRow js threadId link) =
      (threadId, linkKey js link) := by
  simp only [pullRequestRowKey, ThreadTables.pullRequestRow]

@[simp] theorem source_pullRequestRow (threadId : ThreadId) (link : ThreadPullRequestLink) :
    (ThreadTables.pullRequestRow js threadId link).source = link.source := by
  simp only [ThreadTables.pullRequestRow]

@[simp] theorem content_pullRequestRow (threadId : ThreadId) (link : ThreadPullRequestLink) :
    (ThreadTables.pullRequestRow js threadId link).toThreadPullRequestLink.content =
      link.content := by
  simp only [ThreadTables.pullRequestRow, ThreadPullRequestLink.content]

theorem StoredLinks.congr {threadId : ThreadId} {links links' : List ThreadPullRequestLink}
    {rows : Table pullRequestRowKey} (h : StoredLinks js threadId links rows)
    (hlinks : ∀ l, l ∈ links' ↔ l ∈ links) : StoredLinks js threadId links' rows :=
  fun row ↦ (h row).trans (by simp only [hlinks])

/-- **The links of a thread in the three folds.** -/
structure LinksAgree (js : JsRuntime) (threadId : ThreadId) (thread : OrchestrationThread)
    (tables : ThreadTables) (shown : Option OrchestrationThread) : Prop where
  distinct : DistinctLinks js thread.pullRequests
  stored : StoredLinks js threadId thread.pullRequests tables.pullRequests
  row : (tables.threads.get threadId).isSome
  shown : ∃ detail, shown = some detail ∧ SameLinks js thread.pullRequests detail.pullRequests

theorem SameLinks.linkMap_eq {links links' : List ThreadPullRequestLink}
    (h : SameLinks js links links') (hdistinct : DistinctLinks js links)
    (key : ThreadPullRequestKey) : linkMap js links' key = linkMap js links key := by
  have hfind : links'.find? (linkKey js · = key) = links.find? (linkKey js · = key) :=
    Option.ext fun l ↦ by
      rw [h.distinct.find?_eq_some, hdistinct.find?_eq_some, h.mem_iff]
  rw [linkMap, linkMap, hfind]

theorem StoredLinks.rowMap_eq {threadId : ThreadId} {links : List ThreadPullRequestLink}
    {tables : ThreadTables} (h : StoredLinks js threadId links tables.pullRequests)
    (hdistinct : DistinctLinks js links) (key : ThreadPullRequestKey) :
    rowMap tables threadId key = linkMap js links key := by
  cases hfind : links.find? (linkKey js · = key) with
  | some l =>
    obtain ⟨hl, hkey⟩ := hdistinct.find?_eq_some.mp hfind
    obtain ⟨hrow, -⟩ := (h (ThreadTables.pullRequestRow js threadId l)).mpr ⟨l, hl, rfl⟩
    have hget : tables.pullRequests.get (threadId, key) =
        some (ThreadTables.pullRequestRow js threadId l) := by
      refine Table.get_eq_some.mpr ⟨hrow, ?_⟩
      rw [pullRequestRowKey_pullRequestRow, hkey]
    rw [rowMap, linkMap, hfind, hget, Option.map_some, Option.map_some, content_pullRequestRow]
  | none =>
    have hget : tables.pullRequests.get (threadId, key) = none := by
      rw [Option.eq_none_iff_forall_not_mem]
      intro row hrow
      obtain ⟨hmem, hrowKey⟩ := Table.get_eq_some.mp hrow
      obtain ⟨l, hl, rfl⟩ := (h row).mp ⟨hmem, congrArg Prod.fst hrowKey⟩
      have hne : linkKey js l ≠ key := by simpa using List.find?_eq_none.mp hfind l hl
      rw [pullRequestRowKey_pullRequestRow] at hrowKey
      exact absurd (Prod.mk.inj hrowKey).2 hne
    rw [rowMap, linkMap, hfind, hget]
    rfl

/-! ## Events that leave links alone -/

/-- Whether an event can change links. -/
def ThreadEventPayload.changesLinks : ThreadEventPayload → Bool
  | .metaUpdated payload => payload.linkedPullRequest.isSome
  | .pullRequestLinked .. | .pullRequestUnlinked .. | .pullRequestSynced .. => true
  | _ => false

section Frame

variable {projects : List OrchestrationProject} {occurredAt : IsoDateTime} {threadId : ThreadId}
  {payload : ThreadEventPayload} {reads : ThreadReads} {tables : ThreadTables}
  {row : ProjectionThread}

theorem pullRequests_threadPatch (h : payload.changesLinks = false)
    (thread entry : OrchestrationThread) :
    (threadPatch js projects occurredAt thread payload entry).pullRequests =
      entry.pullRequests := by
  cases payload
  case metaUpdated payload =>
    simp only [ThreadEventPayload.changesLinks, Option.isSome_eq_false_iff,
      Option.isNone_iff_eq_none] at h
    simp only [threadPatch, h]
  case pullRequestLinked => cases h
  case pullRequestUnlinked => cases h
  case pullRequestSynced => cases h
  case turnDiffCompleted =>
    simp only [threadPatch]
    split <;> rfl
  all_goals simp only [threadPatch]

theorem pullRequests_foldThreadDetail (hbounds : payload.bounds = false)
    (h : payload.changesLinks = false) (detail : OrchestrationThread) :
    ∃ detail', foldThreadDetail js occurredAt threadId payload (some detail) = some detail' ∧
      detail'.pullRequests = detail.pullRequests := by
  cases payload
  case created => cases hbounds
  case deleted => cases hbounds
  case pullRequestLinked => cases h
  case pullRequestUnlinked => cases h
  case pullRequestSynced => cases h
  all_goals simp only [foldThreadDetail, applyThreadDetailPayload]
  case turnInterruptRequested =>
    split
    · split <;> exact ⟨_, rfl, rfl⟩
    · exact ⟨_, rfl, rfl⟩
  case turnDiffCompleted => split <;> exact ⟨_, rfl, rfl⟩
  case sessionStopRequested => split <;> exact ⟨_, rfl, rfl⟩
  all_goals exact ⟨_, rfl, rfl⟩

theorem pullRequests_updateThreadRow (h : payload.changesLinks = false) :
    (updateThreadRow js reads occurredAt threadId payload row tables).pullRequests =
      tables.pullRequests := by
  cases payload
  case metaUpdated payload =>
    simp only [ThreadEventPayload.changesLinks, Option.isSome_eq_false_iff,
      Option.isNone_iff_eq_none] at h
    simp only [updateThreadRow, h]
    rfl
  case pullRequestLinked => cases h
  case pullRequestUnlinked => cases h
  case pullRequestSynced => cases h
  all_goals rfl

end Frame

/-! ## Events that change links -/

/-- The links after one is put in the place of the one with its key, in any order. -/
structure Replaced (js : JsRuntime) (links : List ThreadPullRequestLink)
    (link : ThreadPullRequestLink) (links' : List ThreadPullRequestLink) : Prop where
  distinct : DistinctLinks js links'
  mem_iff : ∀ l, l ∈ links' ↔ l = link ∨ (l ∈ links ∧ linkKey js l ≠ linkKey js link)

/-- The links after the one with a key is removed. -/
structure Removed (js : JsRuntime) (links : List ThreadPullRequestLink)
    (key : ThreadPullRequestKey) (links' : List ThreadPullRequestLink) : Prop where
  distinct : DistinctLinks js links'
  mem_iff : ∀ l, l ∈ links' ↔ l ∈ links ∧ linkKey js l ≠ key

section Lists

variable {links : List ThreadPullRequestLink} {link : ThreadPullRequestLink}
  {key : ThreadPullRequestKey}

theorem replaced_upsertPullRequestLink (h : DistinctLinks js links) :
    Replaced js links link (upsertPullRequestLink js links link) where
  distinct := by
    rw [upsertPullRequestLink_eq]
    exact Table.nodup_upsertRows h link
  mem_iff l := by
    rw [upsertPullRequestLink_eq]
    exact Table.mem_upsertRows h

/-- The client moves the link to the end. -/
theorem replaced_filter_concat (h : DistinctLinks js links) :
    Replaced js links link
      ((links.filter fun existing ↦ !linksEqual js existing link) ++ [link]) where
  distinct := by
    rw [DistinctLinks, List.map_append, List.nodup_append]
    refine ⟨h.filter _, List.nodup_singleton _, ?_⟩
    intro k hk k' hk'
    obtain ⟨l, hl, rfl⟩ := List.mem_map.mp hk
    rw [List.mem_singleton.mp hk']
    simpa using (List.mem_filter.mp hl).2
  mem_iff l := by simp [or_comm]

theorem removed_removePullRequestLink (h : DistinctLinks js links) :
    Removed js links (normalKey js key) (removePullRequestLink js links key) where
  distinct := h.filter _
  mem_iff l := by simp [removePullRequestLink]

/-- A sync keeps the keys, so it replaces the link with its key. -/
theorem replaced_map_sync (h : DistinctLinks js links) (hlink : link ∈ links)
    (hkey : linkKey js link = normalKey js key) (snapshot : ThreadPullRequestSnapshot)
    (stack : Option ThreadPullRequestStack) :
    Replaced js links { link with snapshot := some snapshot, stack } (links.map fun l ↦
      if linkHasKey js key l then { l with snapshot := some snapshot, stack } else l) where
  distinct := by
    rw [DistinctLinks, List.map_map]
    have hkeys : linkKey js ∘ (fun l ↦ if linkHasKey js key l then
        { l with snapshot := some snapshot, stack } else l) = linkKey js := by
      funext l
      simp only [Function.comp_apply]
      split <;> rfl
    rw [hkeys]
    exact h
  mem_iff l := by
    have hsynced : linkKey js { link with snapshot := some snapshot, stack } = linkKey js link :=
      rfl
    rw [List.mem_map, hsynced]
    constructor
    · rintro ⟨l', hl', rfl⟩
      by_cases hl : linkKey js l' = normalKey js key
      · obtain rfl := h.eq hl' hlink (hl.trans hkey.symm)
        exact .inl (if_pos (by simpa using hl))
      · rw [if_neg (by simpa using hl)]
        exact .inr ⟨hl', fun heq ↦ hl (heq.trans hkey)⟩
    · rintro (rfl | ⟨hl, hne⟩)
      · exact ⟨link, hlink, if_pos (by simpa using hkey)⟩
      · exact ⟨l, hl, if_neg (by simpa using fun heq ↦ hne (heq.trans hkey.symm))⟩

end Lists

/-! ## Looking rows up -/

/-- The key that a link is stored under stays the same when it is normalised again, with the URL of
the link and without. -/
def SettledKey (js : JsRuntime) (link : ThreadPullRequestLink) : Prop :=
  linkKey js { link with toThreadPullRequestKey := linkKey js link } = linkKey js link ∧
    normalKey js (linkKey js link) = linkKey js link

/-- The links that answer to a key, before or after their own keys are normalised again, have
settled keys. -/
def KeySettled (js : JsRuntime) (links : List ThreadPullRequestLink)
    (key : ThreadPullRequestKey) : Prop :=
  ∀ link ∈ links, (linkKey js link = normalKey js key ∨
    linkKey js { link with toThreadPullRequestKey := linkKey js link } = normalKey js key) →
      SettledKey js link

section Lookup

variable {threadId : ThreadId} {links : List ThreadPullRequestLink} {tables : ThreadTables}
  {key : ThreadPullRequestKey}

theorem findPullRequest_eq_some {row : ProjectionThreadPullRequest}
    (h : tables.findPullRequest js threadId key = some row) :
    (row ∈ tables.pullRequests.rows ∧ row.threadId = threadId) ∧
      linkKey js row.toThreadPullRequestLink = normalKey js key := by
  have hmem := List.mem_of_find?_eq_some h
  have hkey := List.find?_some h
  simp only [ThreadTables.listPullRequests, mem_stableSort, List.mem_filter,
    decide_eq_true_eq] at hmem
  exact ⟨hmem, by simpa using hkey⟩

theorem findPullRequest_eq_none (h : tables.findPullRequest js threadId key = none)
    {row : ProjectionThreadPullRequest} (hrow : row ∈ tables.pullRequests.rows)
    (hid : row.threadId = threadId) :
    linkKey js row.toThreadPullRequestLink ≠ normalKey js key := by
  have hmem : row ∈ tables.listPullRequests threadId := by
    simp [ThreadTables.listPullRequests, hrow, hid]
  simpa using List.find?_eq_none.mp h row hmem

/-- A row that is found is the row of the link with the key. -/
theorem StoredLinks.of_find (h : StoredLinks js threadId links tables.pullRequests)
    (hsettled : KeySettled js links key) {row : ProjectionThreadPullRequest}
    (hfind : tables.findPullRequest js threadId key = some row) :
    ∃ link ∈ links, ThreadTables.pullRequestRow js threadId link = row ∧
      linkKey js link = normalKey js key ∧ SettledKey js link := by
  obtain ⟨hrow, hkey⟩ := findPullRequest_eq_some hfind
  obtain ⟨link, hlink, rfl⟩ := (h row).mp hrow
  have hlinkSettled := hsettled link hlink (.inr hkey)
  exact ⟨link, hlink, rfl, hlinkSettled.1.symm.trans hkey, hlinkSettled⟩

/-- A synced row is stored once more under the key it has. -/
theorem pullRequestRow_synced {link : ThreadPullRequestLink} (hsettled : SettledKey js link)
    (threadId : ThreadId) (snapshot : Option ThreadPullRequestSnapshot)
    (stack : Option ThreadPullRequestStack) :
    ThreadTables.pullRequestRow js threadId
        { (ThreadTables.pullRequestRow js threadId link).toThreadPullRequestLink with
          snapshot, stack } =
      ThreadTables.pullRequestRow js threadId { link with snapshot, stack } := by
  have hkey : linkKey js { link with
      toThreadPullRequestKey := linkKey js link, snapshot, stack } = linkKey js link := hsettled.1
  simp only [ThreadTables.pullRequestRow, hkey]
  rfl

/-- Where no row is found, no link has the key. -/
theorem StoredLinks.of_find_none (h : StoredLinks js threadId links tables.pullRequests)
    (hsettled : KeySettled js links key)
    (hfind : tables.findPullRequest js threadId key = none) :
    ∀ link ∈ links, linkKey js link ≠ normalKey js key := by
  intro link hlink hkey
  obtain ⟨hrow, hid⟩ := (h (ThreadTables.pullRequestRow js threadId link)).mpr ⟨link, hlink, rfl⟩
  refine findPullRequest_eq_none hfind hrow hid ?_
  exact (hsettled link hlink (.inl hkey)).1.trans hkey

/-- Storing a link replaces the one with its key. -/
theorem StoredLinks.upsert (h : StoredLinks js threadId links tables.pullRequests)
    {link : ThreadPullRequestLink} {links' : List ThreadPullRequestLink}
    (hlinks : Replaced js links link links') : StoredLinks js threadId links'
      (tables.upsertPullRequest js threadId link).pullRequests := by
  intro row
  rw [ThreadTables.upsertPullRequest, Table.mem_upsert]
  constructor
  · rintro ⟨rfl | ⟨hrow, hne⟩, hid⟩
    · exact ⟨link, (hlinks.mem_iff link).mpr (.inl rfl), rfl⟩
    · obtain ⟨l, hl, rfl⟩ := (h row).mp ⟨hrow, hid⟩
      refine ⟨l, (hlinks.mem_iff l).mpr (.inr ⟨hl, fun hkey ↦ hne ?_⟩), rfl⟩
      simp only [pullRequestRowKey_pullRequestRow, hkey]
  · rintro ⟨l, hl, rfl⟩
    refine ⟨?_, rfl⟩
    rcases (hlinks.mem_iff l).mp hl with rfl | ⟨hl, hne⟩
    · exact .inl rfl
    · refine .inr ⟨((h _).mpr ⟨l, hl, rfl⟩).1, fun hkey ↦ hne ?_⟩
      simp only [pullRequestRowKey_pullRequestRow] at hkey
      exact (Prod.mk.inj hkey).2

/-- Deleting the row of a settled key removes the link with that key. -/
theorem StoredLinks.delete (h : StoredLinks js threadId links tables.pullRequests)
    {link : ThreadPullRequestLink} (hsettled : SettledKey js link)
    {links' : List ThreadPullRequestLink} (hlinks : Removed js links (linkKey js link) links') :
    StoredLinks js threadId links'
      (tables.deletePullRequest js threadId (linkKey js link)).pullRequests := by
  have hkey : normalizeThreadPullRequestKey js (keySourceOfKey (linkKey js link)) =
      linkKey js link := hsettled.2
  intro row
  rw [ThreadTables.deletePullRequest, Table.mem_deleteWhere, hkey, decide_eq_false_iff_not]
  constructor
  · rintro ⟨⟨hrow, hne⟩, hid⟩
    obtain ⟨l, hl, rfl⟩ := (h row).mp ⟨hrow, hid⟩
    refine ⟨l, (hlinks.mem_iff l).mpr ⟨hl, fun hkey ↦ hne ?_⟩, rfl⟩
    rw [pullRequestRowKey_pullRequestRow, hkey]
  · rintro ⟨l, hl, rfl⟩
    obtain ⟨hl, hne⟩ := (hlinks.mem_iff l).mp hl
    obtain ⟨hrow, hid⟩ := (h _).mpr ⟨l, hl, rfl⟩
    refine ⟨⟨hrow, fun hkey ↦ hne ?_⟩, hid⟩
    rw [pullRequestRowKey_pullRequestRow] at hkey
    exact (Prod.mk.inj hkey).2

end Lookup

/-! ## One event -/

section Threads

variable {projects : List OrchestrationProject} {occurredAt : IsoDateTime} {threadId k : ThreadId}
  {payload : ThreadEventPayload} {reads : ThreadReads} {tables : ThreadTables}
  {row : ProjectionThread} {links : List ThreadPullRequestLink}

theorem StoredLinks.upsert_of_ne (hk : k ≠ threadId)
    (h : StoredLinks js k links tables.pullRequests) (link : ThreadPullRequestLink) :
    StoredLinks js k links (tables.upsertPullRequest js threadId link).pullRequests := by
  intro row
  rw [← h row, ThreadTables.upsertPullRequest, Table.mem_upsert]
  constructor
  · rintro ⟨rfl | ⟨hrow, -⟩, hid⟩
    · exact absurd hid.symm hk
    · exact ⟨hrow, hid⟩
  · rintro ⟨hrow, hid⟩
    exact ⟨.inr ⟨hrow, fun hkey ↦ hk (hid.symm.trans (congrArg Prod.fst hkey))⟩, hid⟩

theorem StoredLinks.deleteWhere_of_ne {p : ProjectionThreadPullRequest → Bool}
    (hp : ∀ row, row.threadId = k → p row = false)
    (h : StoredLinks js k links tables.pullRequests) :
    StoredLinks js k links (tables.pullRequests.deleteWhere p) := by
  intro row
  rw [← h row, Table.mem_deleteWhere]
  exact ⟨fun ⟨⟨hrow, _⟩, hid⟩ ↦ ⟨hrow, hid⟩, fun ⟨hrow, hid⟩ ↦ ⟨⟨hrow, hp row hid⟩, hid⟩⟩

/-- The projector leaves the links of other threads alone. -/
theorem StoredLinks.projection_of_ne (hk : k ≠ threadId)
    (h : StoredLinks js k links tables.pullRequests) : StoredLinks js k links
      (applyThreadsProjection js reads occurredAt threadId payload tables).pullRequests := by
  have hthread : ∀ row : ProjectionThreadPullRequest, row.threadId = k →
      decide (row.threadId = threadId) = false :=
    fun row hid ↦ decide_eq_false fun heq ↦ hk (hid.symm.trans heq)
  by_cases hbounds : payload.bounds = false
  · rw [applyThreadsProjection_of_bounds hbounds]
    cases hget : tables.threads.get threadId with
    | none => exact h
    | some row =>
      by_cases hchanges : payload.changesLinks = false
      · rw [pullRequests_updateThreadRow hchanges]
        exact h
      cases payload <;> simp only [ThreadEventPayload.changesLinks, not_true_eq_false] at hchanges
      case metaUpdated payload =>
        have hmanual : StoredLinks js k links
            (tables.deletePullRequestsBySource threadId .manual).pullRequests :=
          h.deleteWhere_of_ne fun row hid ↦ by simp [show row.threadId ≠ threadId from hid ▸ hk]
        simp only [updateThreadRow]
        split
        · exact h
        · split
          · exact hmanual
          · exact hmanual.upsert_of_ne hk _
      case pullRequestLinked link updatedAt => exact h.upsert_of_ne hk link
      case pullRequestUnlinked key updatedAt =>
        simp only [updateThreadRow]
        split
        · exact h
        · refine h.deleteWhere_of_ne fun row hid ↦ ?_
          simp [pullRequestRowKey, show row.threadId ≠ threadId from hid ▸ hk]
      case pullRequestSynced key snapshot stack updatedAt =>
        simp only [updateThreadRow]
        split
        · exact h
        · exact h.upsert_of_ne hk _
  · have hcleared : StoredLinks js k links (tables.deletePullRequests threadId).pullRequests :=
      h.deleteWhere_of_ne hthread
    cases payload <;> simp only [ThreadEventPayload.bounds, not_true_eq_false] at hbounds
    case created => exact hcleared
    case deleted =>
      simp only [applyThreadsProjection]
      split <;> exact hcleared

end Threads

/-- The links of a thread in the read model. -/
def linksOf (model : OrchestrationReadModel) (threadId : ThreadId) : List ThreadPullRequestLink :=
  ((findThread model.threads threadId).map OrchestrationThread.pullRequests).getD []

/-- An event that the three folds of a thread with the given links take alike: it carries no single
link, or clears it where no link is manual, and a key that it names is settled. -/
def TakenAlike (js : JsRuntime) (links : List ThreadPullRequestLink) :
    ThreadEventPayload → Prop
  | .metaUpdated payload => payload.linkedPullRequest = none ∨
      (payload.linkedPullRequest = some none ∧ ∀ link ∈ links, link.source ≠ .manual)
  | .pullRequestUnlinked key _ => KeySettled js links key
  | .pullRequestSynced key _ _ _ => KeySettled js links key
  | _ => True

/-- An event that the three folds take alike. -/
def LinkEventAgrees (js : JsRuntime) (model : OrchestrationReadModel)
    (event : PlannedOrchestrationEvent) : Prop :=
  match event.payload with
  | .project .. => True
  | .thread threadId payload => TakenAlike js (linksOf model threadId) payload

instance (link : ThreadPullRequestLink) : Decidable (SettledKey js link) :=
  inferInstanceAs (Decidable (_ ∧ _))

instance (links : List ThreadPullRequestLink) (key : ThreadPullRequestKey) :
    Decidable (KeySettled js links key) :=
  inferInstanceAs (Decidable (∀ link ∈ links, _))

instance (links : List ThreadPullRequestLink) (payload : ThreadEventPayload) :
    Decidable (TakenAlike js links payload) := by
  cases payload <;> (dsimp only [TakenAlike]; infer_instance)

instance (model : OrchestrationReadModel) :
    (event : PlannedOrchestrationEvent) → Decidable (LinkEventAgrees js model event)
  | { payload := .project .., .. } => .isTrue trivial
  | { payload := .thread threadId payload, .. } =>
    inferInstanceAs (Decidable (TakenAlike js (linksOf model threadId) payload))

section Own

variable {projects : List OrchestrationProject} {occurredAt : IsoDateTime} {threadId : ThreadId}
  {payload : ThreadEventPayload} {reads : ThreadReads} {tables : ThreadTables}
  {thread detail : OrchestrationThread}

theorem isSome_get_applyThreadsProjection (hbounds : payload.bounds = false)
    (h : (tables.threads.get threadId).isSome) :
    ((applyThreadsProjection js reads occurredAt threadId payload tables).threads.get
      threadId).isSome := by
  obtain ⟨row, hrow⟩ := Option.isSome_iff_exists.mp h
  rw [applyThreadsProjection_of_bounds hbounds, hrow]
  obtain ⟨row', hrow', -⟩ :=
    Option.map_eq_some_iff.mp (rowAfter_updateThreadRow hbounds hrow).own
  exact Option.isSome_iff_exists.mpr ⟨row', hrow'⟩

/-- The links of a thread that was created just now. -/
theorem linksAgree_created (created : ThreadCreatedPayload) (shown : Option OrchestrationThread) :
    LinksAgree js threadId (createdThread threadId created)
      (applyThreadsProjection js reads occurredAt threadId (.created created) tables)
      (foldThreadDetail js occurredAt threadId (.created created) shown) where
  distinct := List.nodup_nil
  stored row := by
    simp [applyThreadsProjection, ThreadTables.deletePullRequests, ThreadTables.upsertThread,
      createdThread]
  row := by
    simp [applyThreadsProjection, ThreadTables.upsertThread, createdThreadRow]
  shown := by
    refine ⟨createdThread threadId created, ?_, List.nodup_nil, fun _ ↦ Iff.rfl⟩
    cases shown <;> rfl

/-- An event that leaves links alone. -/
private theorem LinksAgree.frame (h : LinksAgree js threadId thread tables (some detail))
    (hbounds : payload.bounds = false) (hchanges : payload.changesLinks = false) :
    LinksAgree js threadId (threadPatch js projects occurredAt thread payload thread)
      (applyThreadsProjection js reads occurredAt threadId payload tables)
      (foldThreadDetail js occurredAt threadId payload (some detail)) := by
  have hthread : (threadPatch js projects occurredAt thread payload thread).pullRequests =
      thread.pullRequests := pullRequests_threadPatch hchanges thread thread
  obtain ⟨detail', hdetail', hlinks'⟩ : ∃ detail',
      foldThreadDetail js occurredAt threadId payload (some detail) = some detail' ∧
        detail'.pullRequests = detail.pullRequests :=
    pullRequests_foldThreadDetail hbounds hchanges detail
  obtain ⟨_, hshown, hsame⟩ := h.shown
  obtain rfl := Option.some_inj.mp hshown
  refine ⟨hthread ▸ h.distinct, ?_, isSome_get_applyThreadsProjection hbounds h.row, detail',
    hdetail', ?_⟩
  · rw [hthread, applyThreadsProjection_of_bounds hbounds]
    cases tables.threads.get threadId with
    | none => exact h.stored
    | some row =>
      dsimp only
      rw [pullRequests_updateThreadRow hchanges]
      exact h.stored
  · rw [hthread, hlinks']
    exact hsame

/-- The links after one was put in its place everywhere. -/
private theorem LinksAgree.replaced (h : LinksAgree js threadId thread tables (some detail))
    {link : ThreadPullRequestLink} {thread' detail' : OrchestrationThread} {tables' : ThreadTables}
    (hthread : Replaced js thread.pullRequests link thread'.pullRequests)
    (hdetail : Replaced js detail.pullRequests link detail'.pullRequests)
    (htables : tables'.pullRequests = (tables.upsertPullRequest js threadId link).pullRequests)
    (hrow : (tables'.threads.get threadId).isSome) :
    LinksAgree js threadId thread' tables' (some detail') := by
  obtain ⟨_, hshown, hsame⟩ := h.shown
  obtain rfl := Option.some_inj.mp hshown
  refine ⟨hthread.distinct, htables ▸ h.stored.upsert hthread, hrow, detail', rfl,
    hdetail.distinct, fun l ↦ ?_⟩
  rw [hthread.mem_iff, hdetail.mem_iff, hsame.mem_iff]

/-- **An event that the folds of a thread take alike keeps their links the same.** -/
theorem LinksAgree.own (h : LinksAgree js threadId thread tables (some detail))
    (hbounds : payload.bounds = false) (hevent : TakenAlike js thread.pullRequests payload) :
    LinksAgree js threadId (threadPatch js projects occurredAt thread payload thread)
      (applyThreadsProjection js reads occurredAt threadId payload tables)
      (foldThreadDetail js occurredAt threadId payload (some detail)) := by
  by_cases hchanges : payload.changesLinks = false
  · exact h.frame hbounds hchanges
  have hrow' : ((applyThreadsProjection js reads occurredAt threadId payload tables).threads.get
      threadId).isSome := isSome_get_applyThreadsProjection hbounds h.row
  obtain ⟨_, hshown, hsame⟩ := h.shown
  obtain rfl := Option.some_inj.mp hshown
  obtain ⟨row, hrow⟩ := Option.isSome_iff_exists.mp h.row
  rw [applyThreadsProjection_of_bounds hbounds, hrow] at hrow' ⊢
  cases payload <;> simp only [ThreadEventPayload.changesLinks, not_true_eq_false] at hchanges
  case metaUpdated payload =>
    rcases hevent with hnone | ⟨hcleared, hmanual⟩
    · exact absurd hchanges (by simp [hnone])
    -- there is no manual link to remove
    have hlinks : thread.pullRequests.filter (·.source ≠ .manual) = thread.pullRequests :=
      List.filter_eq_self.mpr fun link hlink ↦ by simpa using hmanual link hlink
    have hthread : (threadPatch js projects occurredAt thread (.metaUpdated payload)
        thread).pullRequests = thread.pullRequests := by
      simp only [threadPatch, hcleared, pullRequestsPatch, legacyLinkToPullRequests, hlinks]
    refine ⟨hthread ▸ h.distinct, ?_, hrow', _, rfl, ?_⟩
    · rw [hthread]
      simp only [updateThreadRow, hcleared]
      intro row
      rw [← h.stored row, ThreadTables.deletePullRequestsBySource, Table.mem_deleteWhere]
      refine ⟨fun hrow ↦ ⟨hrow.1.1, hrow.2⟩, fun hrow ↦ ⟨⟨hrow.1, ?_⟩, hrow.2⟩⟩
      obtain ⟨link, hlink, rfl⟩ := (h.stored row).mp hrow
      simpa using fun _ ↦ hmanual link hlink
    · rw [hthread]
      exact hsame
  case pullRequestLinked link updatedAt =>
    exact h.replaced (replaced_upsertPullRequestLink h.distinct)
      (replaced_filter_concat hsame.distinct) rfl hrow'
  case pullRequestUnlinked key updatedAt =>
    have hremoved : Removed js thread.pullRequests (normalKey js key)
        (removePullRequestLink js thread.pullRequests key) :=
      removed_removePullRequestLink h.distinct
    have hremovedShown : Removed js detail.pullRequests (normalKey js key)
        (removePullRequestLink js detail.pullRequests key) :=
      removed_removePullRequestLink hsame.distinct
    refine ⟨hremoved.distinct, ?_, hrow', _, rfl, hremovedShown.distinct, fun l ↦ ?_⟩
    · simp only [updateThreadRow]
      cases hfind : tables.findPullRequest js threadId key with
      | none =>
        -- no link has the key, so that none is removed
        have hnone := h.stored.of_find_none hevent hfind
        refine h.stored.congr fun l ↦ (hremoved.mem_iff l).trans ?_
        exact and_iff_left_of_imp (hnone l)
      | some found =>
        obtain ⟨link, hlink, rfl, hkey, hsettled⟩ := h.stored.of_find hevent hfind
        exact h.stored.delete hsettled (hkey ▸ hremoved)
    · refine (hremovedShown.mem_iff l).trans ?_
      rw [hsame.mem_iff]
      exact (hremoved.mem_iff l).symm
  case pullRequestSynced key snapshot stack updatedAt =>
    have hany {links : List ThreadPullRequestLink} : links.any (linkHasKey js key) = true ↔
        ∃ link ∈ links, linkKey js link = normalKey js key := by simp
    cases hfind : tables.findPullRequest js threadId key with
    | none =>
      have hnone := h.stored.of_find_none hevent hfind
      have hthread : ¬thread.pullRequests.any (linkHasKey js key) = true := by
        rw [hany]
        rintro ⟨link, hlink, hkey⟩
        exact hnone link hlink hkey
      have hdetail : ¬detail.pullRequests.any (linkHasKey js key) = true := by
        rw [hany]
        rintro ⟨link, hlink, hkey⟩
        exact hnone link ((hsame.mem_iff link).mp hlink) hkey
      have htables : updateThreadRow js reads occurredAt threadId
          (.pullRequestSynced key snapshot stack updatedAt) row tables = tables := by
        simp only [updateThreadRow, hfind]
      simp only [threadPatch, foldThreadDetail, applyThreadDetailPayload, if_neg hthread,
        if_neg hdetail, htables]
      exact h
    | some found =>
      obtain ⟨link, hlink, rfl, hkey, hsettled⟩ := h.stored.of_find hevent hfind
      have hshownLink := (hsame.mem_iff link).mpr hlink
      have hthread := hany.mpr ⟨link, hlink, hkey⟩
      have hdetail := hany.mpr ⟨link, hshownLink, hkey⟩
      have htables : updateThreadRow js reads occurredAt threadId
          (.pullRequestSynced key snapshot stack updatedAt) row tables =
            (tables.upsertPullRequest js threadId { link with
              snapshot := some snapshot, stack }).upsertThread { row with updatedAt } := by
        simp only [updateThreadRow, hfind, ThreadTables.upsertPullRequest]
        rw [pullRequestRow_synced hsettled]
      dsimp only at hrow' ⊢
      rw [htables] at hrow' ⊢
      simp only [threadPatch, foldThreadDetail, applyThreadDetailPayload, if_pos hthread,
        if_pos hdetail]
      refine h.replaced (replaced_map_sync h.distinct hlink hkey snapshot stack)
        (replaced_map_sync hsame.distinct hshownLink hkey snapshot stack) rfl hrow'

end Own

/-! ## Runs -/

/-- A command all of whose events the three folds take alike. -/
def linksTakenAlike (js : JsRuntime) (reads : ℕ → ThreadReads) :
    ThreadProjections → Dispatch → Prop := fun s dispatch ↦
  ∀ events, (projectionModel js reads).decide ((projectionModel js reads).prepare s dispatch)
      dispatch = .ok events →
    EveryStep (projectionModel js reads).evolve
      (fun s event ↦ LinkEventAgrees js s.readModel event)
      ((projectionModel js reads).prepare s dispatch) events

instance (reads : ℕ → ThreadReads) (s : ThreadProjections) (dispatch : Dispatch) :
    Decidable (linksTakenAlike js reads s dispatch) :=
  match h : (projectionModel js reads).decide ((projectionModel js reads).prepare s dispatch)
      dispatch with
  | .error _ => .isTrue fun _ hevents ↦ nomatch h.symm.trans hevents
  | .ok events =>
    decidable_of_iff (EveryStep (projectionModel js reads).evolve
        (fun s event ↦ LinkEventAgrees js s.readModel event)
        ((projectionModel js reads).prepare s dispatch) events)
      ⟨fun hall _ hevents ↦ Except.ok.inj (h.symm.trans hevents) ▸ hall, fun hall ↦ hall _ h⟩

/-- **The links of every live thread are the same map in the read model, in the database and at
clients**, after each event of every run whose events the three folds take alike. -/
theorem links_of_passes {reads : ℕ → ThreadReads} {nowIso : IsoDateTime} {s : ThreadProjections}
    {log : List PlannedOrchestrationEvent}
    (h : (projectionModel js reads).Passes (linksTakenAlike js reads) (.start nowIso) s log) :
    ∀ thread ∈ s.readModel.threads, thread.deletedAt = none →
      (∀ key, rowMap s.tables thread.id key = linkMap js thread.pullRequests key) ∧
        ∃ shown, s.clients thread.id = some shown ∧
          ∀ key, linkMap js shown.pullRequests key = linkMap js thread.pullRequests key := by
  intro thread hthread hlive
  have hagree : LinksAgree js thread.id thread s.tables (s.clients thread.id) := by
    refine agreement_of_passes (fun _ _ _ created _ shown ↦ linksAgree_created created shown)
      (fun _ _ _ _ k t tables shown hk hagree ↦ ?_)
      (fun s event threadId payload _ t shown hpayload hevent hfind hbounds hagree ↦ ?_)
      (fun _ _ _ hok hdecided ↦ hok _ hdecided) h thread hthread hlive
    · refine ⟨hagree.distinct, hagree.stored.projection_of_ne hk, ?_, hagree.shown⟩
      rw [get_applyThreadsProjection_of_ne hk]
      exact hagree.row
    · obtain ⟨detail, rfl, -⟩ := hagree.shown
      have htaken : TakenAlike js t.pullRequests payload := by
        simpa only [LinkEventAgrees, hpayload, linksOf, hfind, Option.map_some,
          Option.getD_some] using hevent
      exact hagree.own hbounds htaken
  obtain ⟨detail, hdetail, hsame⟩ := hagree.shown
  exact ⟨hagree.stored.rowMap_eq hagree.distinct, detail, hdetail,
    hsame.linkMap_eq hagree.distinct⟩

/-- Create a thread, link a pull request to it by hand, and clear the single link of old clients. -/
def linkThenClear : List Dispatch := createProjectAndThread ++
  [dispatchAt "2026-03-01T12:00:02.000Z" "c3" (.thread "t"
      (.pullRequestLink ⟨"github.com", "o/r", 7⟩ "https://github.com/o/r/pull/7" .manual)),
    dispatchAt "2026-03-01T12:00:03.000Z" "c4" (.thread "t"
      (.metaUpdate { linkedPullRequest := some none }))]

/-- The part of the run that links the pull request. -/
theorem links_of_passes_link :
    ((projectionModel plainRuntime fun _ ↦ {}).run (linksTakenAlike plainRuntime fun _ ↦ {})
        (.start "2026-03-01T12:00:00.000Z") linkThenClear).2.length = 3 ∧
    ∀ thread ∈ ((projectionModel plainRuntime fun _ ↦ {}).run
        (linksTakenAlike plainRuntime fun _ ↦ {}) (.start "2026-03-01T12:00:00.000Z")
        linkThenClear).1.readModel.threads, thread.deletedAt = none →
      (∀ key, rowMap ((projectionModel plainRuntime fun _ ↦ {}).run
          (linksTakenAlike plainRuntime fun _ ↦ {}) (.start "2026-03-01T12:00:00.000Z")
          linkThenClear).1.tables thread.id key =
            linkMap plainRuntime thread.pullRequests key) ∧
        ∃ shown, ((projectionModel plainRuntime fun _ ↦ {}).run
          (linksTakenAlike plainRuntime fun _ ↦ {}) (.start "2026-03-01T12:00:00.000Z")
          linkThenClear).1.clients thread.id = some shown ∧
            ∀ key, linkMap plainRuntime shown.pullRequests key =
              linkMap plainRuntime thread.pullRequests key :=
  ⟨by decide +kernel, links_of_passes (.reached (EventSourced.reaches_run _ _ _ _))⟩

/-- A client keeps a link that clearing the single link of old clients removes on the server. -/
theorem exists_passes_links_ne :
    ∃ s log, (projectionModel plainRuntime fun _ ↦ {}).Passes anyDispatch
        (.start "2026-03-01T12:00:00.000Z") s log ∧
      ∃ thread ∈ s.readModel.threads, thread.deletedAt = none ∧
        ∃ shown, s.clients thread.id = some shown ∧
          ∃ key, linkMap plainRuntime shown.pullRequests key ≠
            linkMap plainRuntime thread.pullRequests key := by
  refine ⟨_, _, .reached (EventSourced.reaches_run _ _ _ linkThenClear), ?_⟩
  have hthread : ∃ thread ∈ ((projectionModel plainRuntime fun _ ↦ {}).run anyDispatch
      (.start "2026-03-01T12:00:00.000Z") linkThenClear).1.readModel.threads,
        thread.deletedAt = none ∧
          ∃ shown ∈ ((projectionModel plainRuntime fun _ ↦ {}).run anyDispatch
            (.start "2026-03-01T12:00:00.000Z") linkThenClear).1.clients thread.id,
              linkMap plainRuntime shown.pullRequests ⟨"github.com", "o/r", 7⟩ ≠
                linkMap plainRuntime thread.pullRequests ⟨"github.com", "o/r", 7⟩ := by
    decide +kernel
  obtain ⟨thread, hmem, hlive, shown, hshown, hne⟩ := hthread
  exact ⟨thread, hmem, hlive, shown, hshown, _, hne⟩

end Awen.Orchestration
