import Awen.Limits.PooledAccounts
import Awen.Shared.PlainRuntime

/-!
# The pooled view and the report for one provider

Over one environment, the pooled view and the report for the one instance of an account show the
same balance of reset credits. They do not always redeem it in the same way. The report asks the hub
with the freshest credits for the credit to redeem, and falls back to the instance where that hub
names none; the pooled view asks the freshest of the hubs that name one, and where no hub does it
goes with the report that the balance came from, which a hub cannot redeem.
-/

namespace Awen.Limits

variable {ω : Type*} {js : JsRuntime}

/-! ## The reports of one environment -/

/-- What a hub holds for an account: usable limits with reset credits. -/
def creditHubs (js : JsRuntime) (sources : List (UsageLimitSource ω)) (account : Account) :
    List (UsageLimitSource ω × UsageLimitSourceAccount ω) :=
  (sourceAccounts sources).filter fun hub ↦
    accountOf js hub.2.driver hub.2.email = some account &&
      (limitsNotice hub.2.usageLimits).isNone && hub.2.usageLimits.resetCredits.isSome

/-- The instance is the only one of the account that has usable limits. -/
structure OnlyNative (js : JsRuntime) (providers : List (ServerProvider ω)) (account : Account)
    (provider : ServerProvider ω) (limits : UsageLimits ω) : Prop where
  mem : provider ∈ providersWithLimits providers
  account_eq : accountOf js provider.driver provider.auth.email = some account
  limits_eq : provider.usageLimits = some limits
  usable : limitsNotice limits = none
  only : ∀ other ∈ providersWithLimits providers, ∀ otherLimits,
    other.usageLimits = some otherLimits → limitsNotice otherLimits = none →
      accountOf js other.driver other.auth.email = some account → other = provider

private theorem filterMap_eq_singleton {α β : Type*} {f : α → Option β} {items : List α}
    (hnodup : items.Nodup) {a : α} {b : β} (ha : a ∈ items) (hab : f a = some b)
    (honly : ∀ x ∈ items, (f x).isSome = true → x = a) : items.filterMap f = [b] := by
  induction items with
  | nil => exact absurd ha List.not_mem_nil
  | cons x items ih =>
    rw [List.nodup_cons] at hnodup
    by_cases hx : x = a
    · subst hx
      have hrest : items.filterMap f = [] := by
        refine List.filterMap_eq_nil_iff.mpr fun y hy ↦ ?_
        by_contra hsome
        have heq := honly y (List.mem_cons_of_mem x hy) (Option.isSome_iff_ne_none.mpr hsome)
        exact hnodup.1 (heq ▸ hy)
      rw [List.filterMap_cons_some hab, hrest]
    · have hnone : f x = none := by
        by_contra hsome
        exact hx (honly x List.mem_cons_self (Option.isSome_iff_ne_none.mpr hsome))
      rw [List.filterMap_cons_none hnone]
      exact ih hnodup.2 ((List.mem_cons.mp ha).resolve_left (Ne.symm hx))
        fun y hy ↦ honly y (List.mem_cons_of_mem x hy)

variable {environmentId : String} {presentation : LimitPresentation ω} {account : Account}
  {provider : ServerProvider ω} {limits : UsageLimits ω}

/-- What hubs report of an account, as the pooled view files it. -/
def hubReports (js : JsRuntime) (environmentId : String) (sources : List (UsageLimitSource ω))
    (account : Account) : List (LimitAccount ω) :=
  ((sourceAccounts sources).filter fun hub ↦
    accountOf js hub.2.driver hub.2.email = some account &&
      (limitsNotice hub.2.usageLimits).isNone).map fun hub ↦
    hubAccount environmentId hub.1.label hub.1 hub.2

theorem hubAccounts_eq : hubAccounts js false environmentId presentation =
    (sourceAccounts presentation.usageLimitSources).filterMap fun hub ↦
      hubAccount? js environmentId hub.1.label hub.1 hub.2 := by
  rw [hubAccounts, sourceAccounts, List.filterMap_flatMap]
  simp only [List.filterMap_map]
  rfl

theorem filedReports_singleton :
    filedReports js (OrderedMap.singleton environmentId presentation) =
      nativeAccounts js environmentId presentation ++
        hubAccounts js false environmentId presentation := by
  rw [filedReports, OrderedMap.entries_singleton, List.flatMap_singleton, List.flatMap_singleton]
  rfl

theorem reportsAt_append (left right : List (String × LimitAccount ω)) (key : String) :
    reportsAt (left ++ right) key = reportsAt left key ++ reportsAt right key := by
  rw [reportsAt, List.filter_append, List.map_append]
  rfl

section

variable (hown : KeyIsOwn js (OrderedMap.singleton environmentId presentation) account)
include hown

/-- The hub reports that are filed under an account are those of the account. -/
theorem reportsAt_hubAccounts :
    reportsAt (hubAccounts js false environmentId presentation) account.key =
      hubReports js environmentId presentation.usageLimitSources account := by
  rw [reportsAt, hubAccounts_eq, List.filter_filterMap, List.map_filterMap, hubReports,
    ← List.filterMap_eq_map, List.filterMap_filter]
  refine List.filterMap_congr fun hub hhub ↦ ?_
  cases hnotice : limitsNotice hub.2.usageLimits with
  | some notice => simp [hubAccount?, hnotice]
  | none =>
    set filed := ((accountKey js hub.2.driver hub.2.email).getD (hub.1.id ++ ":" ++ hub.2.id),
      hubAccount environmentId hub.1.label hub.1 hub.2) with hfiled
    have hsome : hubAccount? js environmentId hub.1.label hub.1 hub.2 = some filed :=
      hubAccount?_eq_some.mpr ⟨hnotice, hfiled⟩
    have hmem : filed ∈ filedReports js (OrderedMap.singleton environmentId presentation) := by
      rw [filedReports_singleton, hubAccounts_eq]
      exact List.mem_append_right _ (List.mem_filterMap.mpr ⟨hub, hhub, hsome⟩)
    rw [hsome]
    by_cases haccount : accountOf js hub.2.driver hub.2.email = some account
    · have hkey : filed.1 = account.key := key_of_account? hmem haccount
      have hkept : (some filed).filter (fun report ↦ report.1 = account.key) = some filed :=
        Option.filter_some_pos (decide_eq_true hkey)
      rw [hkept, if_pos (by simp [haccount])]
      rfl
    · have hkey : filed.1 ≠ account.key := fun hkey ↦ haccount (hown filed hmem hkey)
      simp [haccount, Option.filter, hkey]

/-- The instance reports that are filed under an account are the one of its only instance. -/
theorem reportsAt_nativeAccounts
    (hnodup : (presentation.providers.map (·.instanceId)).Nodup)
    (honly : OnlyNative js presentation.providers account provider limits) :
    reportsAt (nativeAccounts js environmentId presentation) account.key =
      [nativeAccount environmentId presentation.label provider limits] := by
  rw [reportsAt, nativeAccounts, List.filter_filterMap, List.map_filterMap]
  refine filterMap_eq_singleton (hnodup.of_map.filter _) honly.mem ?_ fun other hother hsome ↦ ?_
  · rw [nativeAccount?_eq_some.mpr ⟨limits, honly.limits_eq, honly.usable, rfl⟩,
      (accountKey_eq_some js).mpr honly.account_eq]
    simp
  · obtain ⟨report, hreport⟩ := Option.isSome_iff_exists.mp hsome
    obtain ⟨filed, hfiled, -⟩ := Option.map_eq_some_iff.mp hreport
    obtain ⟨hfiled, hkey⟩ := Option.filter_eq_some_iff.mp hfiled
    have hmem : filed ∈ filedReports js (OrderedMap.singleton environmentId presentation) := by
      rw [filedReports_singleton]
      exact List.mem_append_left _ (List.mem_filterMap.mpr ⟨other, hother, hfiled⟩)
    have haccount := hown filed hmem (of_decide_eq_true hkey)
    obtain ⟨otherLimits, hlimits, husable, rfl⟩ := nativeAccount?_eq_some.mp hfiled
    exact honly.only other hother otherLimits hlimits husable haccount

/-- **What is filed under an account with one instance**: its report, then those of the hubs. -/
theorem reportsAt_singleton
    (hnodup : (presentation.providers.map (·.instanceId)).Nodup)
    (honly : OnlyNative js presentation.providers account provider limits) :
    reportsAt (filedReports js (OrderedMap.singleton environmentId presentation)) account.key =
      nativeAccount environmentId presentation.label provider limits ::
        hubReports js environmentId presentation.usageLimitSources account := by
  rw [filedReports_singleton, reportsAt_append, reportsAt_nativeAccounts hown hnodup honly,
    reportsAt_hubAccounts hown]
  rfl

end

/-! ## The row of the report -/

/-- Whether a hub names the credit to redeem. -/
def namesCredit (hub : UsageLimitSource ω × UsageLimitSourceAccount ω) : Bool :=
  (hub.2.usageLimits.resetCredits.bind (·.nextCreditId)).isSome

/-- **The report asks the hub with the freshest credits.** -/
theorem hubCredits?_eq {sources : List (UsageLimitSource ω)}
    (haccount : accountOf js provider.driver provider.auth.email = some account)
    (hdated : ∀ hub ∈ creditHubs js sources account, Dated js hub.2.usageLimits) :
    hubCredits? js provider sources =
      (creditHubs js sources account).argmax (checkedTime js ·.2.usageLimits) := by
  have hkey := (accountKey_eq_some js).mpr haccount
  have hcandidates : ((sourceAccounts sources).filter fun candidate ↦
      (some account.key).isSome &&
        accountKey js candidate.2.driver candidate.2.email == some account.key &&
        candidate.2.usageLimits.resetCredits.isSome &&
        !(limitsNotice candidate.2.usageLimits).any (· ≠ "")) = creditHubs js sources account := by
    refine List.filter_congr fun hub _ ↦ ?_
    have hnotice : (!(limitsNotice hub.2.usageLimits).any (· ≠ "")) =
        (limitsNotice hub.2.usageLimits).isNone := by
      cases h : limitsNotice hub.2.usageLimits with
      | none => rfl
      | some notice => simp [limitsNotice_ne_empty h]
    have hsame : (accountKey js hub.2.driver hub.2.email == some account.key) =
        decide (accountOf js hub.2.driver hub.2.email = some account) := by
      rw [beq_eq_decide, decide_eq_decide, accountKey_eq_some]
    rw [hnotice, hsame, Option.isSome_some, Bool.true_and, Bool.and_assoc, Bool.and_assoc,
      Bool.and_comm (Option.isSome _)]
  rw [hubCredits?, hkey, hcandidates]
  refine head?_stableSort_eq_argmax _ fun a ha b hb ↦ ?_
  rw [isFresher_eq (hdated b hb) (hdated a ha), ← decide_not, decide_eq_decide, not_lt]

/-- The row of an instance in the report for it. -/
theorem filter_accounts_report {formatIso : ℤ → String} {now : ℤ}
    {providers : List (ServerProvider ω)} {sources : List (UsageLimitSource ω)}
    (hnodup : (providers.map (·.instanceId)).Nodup)
    (hprovider : provider ∈ providersWithLimits providers)
    (hlimits : provider.usageLimits = some limits) :
    ∃ report, collectProviderUsageLimits js formatIso provider.instanceId providers sources now =
        some report ∧
      (report.accounts.filter fun row ↦ row.instanceId = some provider.instanceId) =
        [reportedInstance js sources provider limits] := by
  have hmem : provider ∈ providers := (List.mem_filter.mp hprovider).1
  have hinj := List.inj_on_of_nodup_map hnodup
  -- the instance id finds the provider
  have hfind : providers.find? (fun other ↦ other.instanceId == provider.instanceId) =
      some provider := by
    cases hfound : providers.find? fun other ↦ other.instanceId == provider.instanceId with
    | none => exact absurd (List.find?_eq_none.mp hfound provider hmem) (by simp)
    | some other =>
      rw [hinj (List.mem_of_find?_eq_some hfound) hmem (by simpa using List.find?_some hfound)]
  have hhas : hasProviderUsageLimits provider.driver providers sources = true := by
    rw [hasProviderUsageLimits, Bool.or_eq_true]
    exact .inl (List.any_eq_true.mpr ⟨provider, hprovider, beq_self_eq_true _⟩)
  rw [collectProviderUsageLimits, hfind]
  dsimp only
  rw [hhas]
  refine ⟨_, rfl, ?_⟩
  have hhubs : ∀ source : UsageLimitSource ω, ∀ accounts : List (UsageLimitSourceAccount ω),
      ((accounts.map (reportedHubAccount source)).filter fun row ↦
        row.instanceId = some provider.instanceId) = [] := by
    intro source accounts
    rw [List.filter_map, List.map_eq_nil_iff]
    refine List.filter_eq_nil_iff.mpr fun account _ h ↦ ?_
    have hid : none = some provider.instanceId := of_decide_eq_true h
    exact nomatch hid
  rw [List.filter_append, List.filter_flatMap, List.filter_filterMap]
  simp only [hhubs, List.flatMap_eq_nil_iff.mpr fun _ _ ↦ rfl, List.append_nil]
  refine filterMap_eq_singleton ((hnodup.of_map.filter _).filter _)
    (List.mem_filter.mpr ⟨hprovider, beq_self_eq_true _⟩) ?_ fun other hother hsome ↦ ?_
  · rw [hlimits, Option.map_some]
    exact Option.filter_some_pos (decide_eq_true rfl)
  · obtain ⟨row, hrow⟩ := Option.isSome_iff_exists.mp hsome
    obtain ⟨hrow, hid⟩ := Option.filter_eq_some_iff.mp hrow
    obtain ⟨otherLimits, -, rfl⟩ := Option.map_eq_some_iff.mp hrow
    exact hinj (List.mem_of_mem_filter (List.mem_of_mem_filter hother)) hmem
      (Option.some.inj (of_decide_eq_true hid))

/-! ## Agreement -/

theorem filter_hasCredits_hubReports (sources : List (UsageLimitSource ω)) :
    (hubReports js environmentId sources account).filter LimitAccount.hasCredits =
      (creditHubs js sources account).map fun hub ↦
        hubAccount environmentId hub.1.label hub.1 hub.2 := by
  rw [hubReports, List.filter_map, List.filter_filter, creditHubs]
  exact congrArg _ (List.filter_congr fun hub _ ↦ Bool.and_comm _ _)

theorem filter_redeemsThroughHub_hubReports (sources : List (UsageLimitSource ω)) :
    (hubReports js environmentId sources account).filter LimitAccount.redeemsThroughHub =
      ((creditHubs js sources account).filter namesCredit).map fun hub ↦
        hubAccount environmentId hub.1.label hub.1 hub.2 := by
  rw [hubReports, List.filter_map, List.filter_filter, creditHubs, List.filter_filter]
  refine congrArg _ (List.filter_congr fun hub _ ↦ ?_)
  have hthrough : (LimitAccount.redeemsThroughHub ∘ fun hub ↦
      hubAccount environmentId hub.1.label hub.1 hub.2) hub = namesCredit hub := by
    rw [Function.comp_apply, LimitAccount.redeemsThroughHub, hubAccount, hubInput?, namesCredit]
    cases hub.2.usageLimits.resetCredits.bind (·.nextCreditId) <;> rfl
  have hcredits : namesCredit hub = true → hub.2.usageLimits.resetCredits.isSome = true := by
    rw [namesCredit]
    cases hub.2.usageLimits.resetCredits <;> simp
  rw [hthrough]
  cases hnames : namesCredit hub with
  | false => simp
  | true => simp [hcredits hnames]

/-- The freshest hub with credits. -/
noncomputable def freshestHub (js : JsRuntime) (sources : List (UsageLimitSource ω))
    (account : Account) :
    Option (UsageLimitSource ω × UsageLimitSourceAccount ω) :=
  (creditHubs js sources account).argmax (checkedTime js ·.2.usageLimits)

/-- **The balance on show** is that of the freshest hub where it is fresher than the instance. -/
theorem creditSource_eq {sources : List (UsageLimitSource ω)} {label : String}
    (hdated : ∀ hub ∈ creditHubs js sources account, Dated js hub.2.usageLimits)
    (hlimits : Dated js limits) :
    ((nativeAccount environmentId label provider limits ::
        hubReports js environmentId sources account).filter LimitAccount.hasCredits).argmax
        (checkedTime js ·.limits) =
      (freshestHub js sources account).elim
        (if limits.resetCredits.isSome then
          some (nativeAccount environmentId label provider limits) else none)
        fun hub ↦
          if limits.resetCredits.isNone || isFresher js hub.2.usageLimits limits then
            some (hubAccount environmentId hub.1.label hub.1 hub.2)
          else some (nativeAccount environmentId label provider limits) := by
  rw [List.filter_cons, filter_hasCredits_hubReports]
  have helected : ((creditHubs js sources account).map fun hub ↦
      hubAccount environmentId hub.1.label hub.1 hub.2).argmax (checkedTime js ·.limits) =
      (freshestHub js sources account).map fun hub ↦
        hubAccount environmentId hub.1.label hub.1 hub.2 := argmax_map _ _ _
  cases hcredits : limits.resetCredits with
  | none =>
    have hnone : (nativeAccount environmentId label provider limits).hasCredits = false := by
      rw [LimitAccount.hasCredits, nativeAccount, hcredits]
      rfl
    rw [hnone, if_neg Bool.false_ne_true, helected]
    cases freshestHub js sources account <;> rfl
  | some credits =>
    have hsome : (nativeAccount environmentId label provider limits).hasCredits = true := by
      rw [LimitAccount.hasCredits, nativeAccount, hcredits]
      rfl
    rw [hsome, if_pos rfl, List.argmax_cons, helected]
    cases hhub : freshestHub js sources account with
    | none => rfl
    | some hub =>
      rw [Option.elim_some, isFresher_eq (hdated hub (List.argmax_mem hhub)) hlimits,
        Option.isNone_some, Bool.false_or]
      by_cases hlt : checkedTime js limits < checkedTime js hub.2.usageLimits
      · rw [if_pos (decide_eq_true hlt)]
        exact if_pos hlt
      · rw [if_neg (by simpa using hlt)]
        exact if_neg hlt

/-- **Both views show the same balance.** -/
theorem resetCredits_reportedInstance {sources : List (UsageLimitSource ω)} {label : String}
    (haccount : accountOf js provider.driver provider.auth.email = some account)
    (hdated : ∀ hub ∈ creditHubs js sources account, Dated js hub.2.usageLimits)
    (hlimits : Dated js limits) :
    freshestCredits js (nativeAccount environmentId label provider limits ::
        hubReports js environmentId sources account) =
      (reportedInstance js sources provider limits).limits.resetCredits := by
  rw [freshestCredits, creditSource_eq hdated hlimits, reportedInstance,
    hubCredits?_eq haccount hdated, ← freshestHub]
  cases freshestHub js sources account with
  | none =>
    dsimp only [Option.elim_none]
    cases hcredits : limits.resetCredits with
    | none => rfl
    | some credits => exact hcredits
  | some hub =>
    dsimp only [Option.elim_some]
    split
    next => rfl
    next => rfl

/-- **When both views redeem in the same way**: the freshest hub with credits names the credit to
redeem, or no hub does and the balance on show is the instance's own. -/
def TargetsMeet (js : JsRuntime) (sources : List (UsageLimitSource ω)) (account : Account)
    (limits : UsageLimits ω) : Prop :=
  ∀ hub ∈ freshestHub js sources account, namesCredit hub = true ∨
    (∀ other ∈ creditHubs js sources account, namesCredit other = false) ∧
      limits.resetCredits.isSome = true ∧ checkedTime js hub.2.usageLimits ≤ checkedTime js limits

theorem hubInput?_eq_none {hub : UsageLimitSource ω × UsageLimitSourceAccount ω} :
    hubInput? hub.1 hub.2 = none ↔ namesCredit hub = false := by
  rw [hubInput?, Option.map_eq_none_iff, namesCredit, Option.isSome_eq_false_iff,
    Option.isNone_iff_eq_none]

/-- The pooled view redeems where the report does just when the targets meet. -/
theorem redeem_eq_iff {sources : List (UsageLimitSource ω)} {label : String}
    (haccount : accountOf js provider.driver provider.auth.email = some account)
    (hdated : ∀ report ∈ nativeAccount environmentId label provider limits ::
      hubReports js environmentId sources account, Dated js report.limits)
    (hhubs : ∀ hub ∈ creditHubs js sources account, Dated js hub.2.usageLimits) :
    (merged js (nativeAccount environmentId label provider limits ::
        hubReports js environmentId sources account)).account.bind (·.redeem) =
      (reportedInstance js sources provider limits).resetCreditInput.map
        (fun input ↦ ⟨environmentId, input⟩) ↔ TargetsMeet js sources account limits := by
  have hcredits : ∀ hub ∈ hubReports js environmentId sources account,
      hub.redeem.isSome = true → hub.hasCredits = true := by
    intro report hreport
    obtain ⟨hub, -, rfl⟩ := List.mem_map.mp hreport
    rw [hubAccount, hubInput?, LimitAccount.hasCredits]
    cases hub.2.usageLimits.resetCredits <;> simp
  have hnamed : ((hubReports js environmentId sources account).filter
      LimitAccount.redeemsThroughHub).argmax (checkedTime js ·.limits) =
      (((creditHubs js sources account).filter namesCredit).argmax
        (checkedTime js ·.2.usageLimits)).map fun hub ↦
        hubAccount environmentId hub.1.label hub.1 hub.2 := by
    rw [filter_redeemsThroughHub_hubReports]
    exact argmax_map _ _ _
  have hlimits : Dated js limits := hdated _ List.mem_cons_self
  rw [redeem_merged hdated rfl rfl hcredits, hnamed, creditSource_eq hhubs hlimits,
    reportedInstance, hubCredits?_eq haccount hhubs, ← freshestHub, TargetsMeet]
  cases hhub : freshestHub js sources account with
  | none =>
    have hnil : creditHubs js sources account = [] := List.argmax_eq_none.mp hhub
    rw [hnil]
    refine iff_of_true ?_ fun hub hmem ↦ absurd hmem (Option.not_mem_none hub)
    dsimp only [List.filter_nil, List.argmax_nil, Option.map_none, Option.elim_none]
    split <;> rfl
  | some hub =>
    simp only [Option.mem_some_iff, forall_eq', Option.bind_some, Option.elim_some]
    by_cases hnames : namesCredit hub = true
    · -- the freshest hub names the credit, so it is the freshest that names one
      rw [argmax_filter_of_argmax hhub hnames]
      refine iff_of_true ?_ (.inl hnames)
      cases hinput : hubInput? hub.1 hub.2 with
      | none => exact absurd (hubInput?_eq_none.mp hinput) (by simp [hnames])
      | some input =>
        rw [Option.map_some, Option.elim_some, hubAccount, hinput, Option.some_or]
    · have hfalse : namesCredit hub = false := Bool.eq_false_iff.mpr hnames
      rw [hubInput?_eq_none.mpr hfalse, Option.none_or, Option.map_some]
      cases hnamed' : ((creditHubs js sources account).filter namesCredit).argmax
          (checkedTime js ·.2.usageLimits) with
      | some named =>
        obtain ⟨hmem, hnamesCredit⟩ := List.mem_filter.mp (List.argmax_mem hnamed')
        refine iff_of_false (fun heq ↦ ?_) fun h ↦ h.elim hnames fun h ↦ ?_
        · rw [Option.map_some, Option.elim_some, hubAccount, hubInput?, Option.map_map,
            Option.map_eq_some_iff] at heq
          obtain ⟨creditId, -, heq⟩ := heq
          cases heq
        · exact absurd hnamesCredit (by simp [h.1 named hmem])
      | none =>
        have hall : ∀ other ∈ creditHubs js sources account, namesCredit other = false :=
          fun other hmem ↦ Bool.eq_false_iff.mpr
            (List.filter_eq_nil_iff.mp (List.argmax_eq_none.mp hnamed') other hmem)
        rw [Option.map_none, Option.elim_none,
          isFresher_eq (hhubs hub (List.argmax_mem hhub)) hlimits]
        by_cases hshown : limits.resetCredits.isSome = true ∧
            checkedTime js hub.2.usageLimits ≤ checkedTime js limits
        · refine iff_of_true ?_ (.inr ⟨hall, hshown⟩)
          rw [if_neg (by simp [← Option.not_isSome, hshown.1, hshown.2])]
          rfl
        · refine iff_of_false (fun heq ↦ ?_) fun h ↦ h.elim hnames fun h ↦ hshown h.2
          have hcond : (limits.resetCredits.isNone ||
              decide (checkedTime js limits < checkedTime js hub.2.usageLimits)) = true := by
            rw [not_and_or, not_le, Bool.not_eq_true, Option.isSome_eq_false_iff] at hshown
            rw [Bool.or_eq_true, decide_eq_true_iff]
            exact hshown
          rw [if_pos hcond, Option.elim_some, hubAccount, hubInput?_eq_none.mpr hfalse] at heq
          cases heq

/-- The pooled entry of the account and the row of the instance in its report show the same balance
of reset credits, and redeem it in the same way. -/
def ViewsAgree (js : JsRuntime) (formatIso : ℤ → String) (now : ℤ) (environmentId : String)
    (presentation : LimitPresentation ω) (account : Account) (provider : ServerProvider ω) : Prop :=
  ∃ entry report row,
    (collectLimitAccounts js (OrderedMap.singleton environmentId presentation)).filter
      (fun entry ↦ entry.account? js = some account) = [entry] ∧
    collectProviderUsageLimits js formatIso provider.instanceId presentation.providers
      presentation.usageLimitSources now = some report ∧
    report.accounts.filter (fun row ↦ row.instanceId = some provider.instanceId) = [row] ∧
    entry.limits.resetCredits = row.limits.resetCredits ∧
    entry.redeem = row.resetCreditInput.map fun input ↦ ⟨environmentId, input⟩

/-- **The two views redeem the credits of an account in the same way** just when the targets meet;
they always show the same balance. -/
theorem viewsAgree_iff {formatIso : ℤ → String} {now : ℤ}
    (hown : KeyIsOwn js (OrderedMap.singleton environmentId presentation) account)
    (hdated : ∀ limits,
      Reported js (OrderedMap.singleton environmentId presentation) account limits →
        Dated js limits)
    (hnodup : (presentation.providers.map (·.instanceId)).Nodup)
    (honly : OnlyNative js presentation.providers account provider limits) :
    ViewsAgree js formatIso now environmentId presentation account provider ↔
      TargetsMeet js presentation.usageLimitSources account limits := by
  have hreports := reportsAt_singleton hown hnodup honly
  set sources := presentation.usageLimitSources
  have hdated' : ∀ report ∈ nativeAccount environmentId presentation.label provider limits ::
      hubReports js environmentId sources account, Dated js report.limits := by
    intro report hreport
    rw [← hreports, mem_reportsAt hown] at hreport
    obtain ⟨filed, hfiled, haccount, rfl⟩ := hreport
    exact hdated _ (reported_iff.mpr ⟨filed, hfiled, haccount, rfl⟩)
  have hhubs : ∀ hub ∈ creditHubs js sources account, Dated js hub.2.usageLimits := by
    intro hub hhub
    have hmem := List.mem_map_of_mem (f := fun hub : UsageLimitSource ω × _ ↦
      hubAccount environmentId hub.1.label hub.1 hub.2) hhub
    rw [← filter_hasCredits_hubReports] at hmem
    exact hdated' _ (List.mem_cons_of_mem _ (List.mem_of_mem_filter hmem))
  obtain ⟨entry, hentry, -⟩ := account_merged js
    (nativeAccount environmentId presentation.label provider limits)
    (hubReports js environmentId sources account)
  have hentries := filter_collectLimitAccounts hown
  rw [hreports, hentry] at hentries
  obtain ⟨report, hreport, hrow⟩ := filter_accounts_report hnodup honly.mem honly.limits_eq
  obtain ⟨latest, -, hlimits⟩ := limits_merged hdated' hentry
  have hbalance : entry.limits.resetCredits =
      (reportedInstance js sources provider limits).limits.resetCredits := by
    rw [hlimits]
    exact resetCredits_reportedInstance honly.account_eq hhubs (hdated' _ List.mem_cons_self)
  have htargets := redeem_eq_iff honly.account_eq hdated' hhubs
  rw [hentry, Option.bind_some] at htargets
  rw [← htargets]
  constructor
  · rintro ⟨entry', report', row, hentry', hreport', hrow', -, hredeem⟩
    obtain rfl : entry = entry' := List.singleton_inj.mp (hentries.symm.trans hentry')
    obtain rfl : report = report' := Option.some.inj (hreport.symm.trans hreport')
    obtain rfl := List.singleton_inj.mp (hrow.symm.trans hrow')
    exact hredeem
  · exact fun hredeem ↦ ⟨entry, report, _, hentries, hreport, hrow, hbalance, hredeem⟩

/-- **What the two views show of an account.** Over any number of environments the pooled view has
one entry for the account, with the windows of its freshest report and the credits of the freshest
report that has some. Over one environment it agrees with the report for the only instance of the
account just when the targets meet. -/
theorem limitViews_iff (js : JsRuntime) (formatIso : ℤ → String) (now : ℤ)
    (presentations : OrderedMap String (LimitPresentation ω)) (account : Account)
    (hown : KeyIsOwn js presentations account)
    (hdated : ∀ limits, Reported js presentations account limits → Dated js limits) :
    ((∀ a b, Reported js presentations account a → Reported js presentations account b →
        checkedTime js a = checkedTime js b → a = b) → PooledRight js presentations account) ∧
    ∀ environmentId presentation provider limits,
      presentations = OrderedMap.singleton environmentId presentation →
      (presentation.providers.map (·.instanceId)).Nodup →
      OnlyNative js presentation.providers account provider limits →
      (ViewsAgree js formatIso now environmentId presentation account provider ↔
        TargetsMeet js presentation.usageLimitSources account limits) := by
  refine ⟨pooledRight hown hdated, fun environmentId presentation provider limits heq ↦ ?_⟩
  subst heq
  exact viewsAgree_iff hown hdated

/-! ## An account with two hubs -/

private def codex : ProviderSlug := ⟨"codex", by decide, by decide⟩

private def address : TrimmedNonEmptyString := ⟨"a@b.c", by decide, by decide⟩

private def credit : TrimmedNonEmptyString := ⟨"credit", by decide, by decide⟩

private def codexAccount : Account := ⟨codex, "a@b.c"⟩

private def nativeLimits : UsageLimits ℕ where
  checkedAt := "2026-09-03T11:00:00.000Z"
  windows := [40]
  resetCredits := some { availableCount := 1 }

private def codexProvider : ServerProvider ℕ where
  instanceId := codex
  driver := codex
  enabled := true
  installed := true
  auth := { email := some address }
  usageLimits := some nativeLimits

/-- A hub that knows the account. -/
private def hubOf (id checkedAt : String) (windows : List ℕ) (resetCredits : ResetCredits) :
    UsageLimitSource ℕ where
  id := id
  label := id
  accounts := [{
    id := "codex.json", driver := codex, email := some address
    usageLimits := { checkedAt, windows, resetCredits := some resetCredits } }]

/-- An environment with an instance and two hubs; the freshest one may name its next credit. -/
private def twoHubs (nextCreditId : Option TrimmedNonEmptyString) : LimitPresentation ℕ where
  label := "Laptop"
  serverConfig := some {
    providers := some [codexProvider]
    usageLimitSources := some [
      hubOf "one" "2026-09-03T11:30:00.000Z" [50]
        { availableCount := 2, nextCreditId := some credit },
      hubOf "two" "2026-09-03T12:00:00.000Z" [60] { availableCount := 3, nextCreditId }] }

private theorem onlyNative_twoHubs (nextCreditId : Option TrimmedNonEmptyString) :
    OnlyNative plainRuntime (twoHubs nextCreditId).providers codexAccount codexProvider
      nativeLimits where
  mem := List.mem_cons_self
  account_eq := by decide
  limits_eq := rfl
  usable := by decide
  only other hother _ _ _ _ := List.mem_singleton.mp hother

private theorem keyIsOwn_twoHubs (nextCreditId : Option TrimmedNonEmptyString)
    (h : nextCreditId ∈ [none, some credit]) :
    KeyIsOwn plainRuntime (OrderedMap.singleton "env" (twoHubs nextCreditId)) codexAccount := by
  revert nextCreditId
  unfold KeyIsOwn
  decide

private theorem dated_twoHubs (nextCreditId : Option TrimmedNonEmptyString)
    (h : nextCreditId ∈ [none, some credit]) (limits : UsageLimits ℕ)
    (hlimits : Reported plainRuntime (OrderedMap.singleton "env" (twoHubs nextCreditId))
      codexAccount limits) : Dated plainRuntime limits := by
  obtain ⟨filed, hfiled, -, rfl⟩ := reported_iff.mp hlimits
  clear hlimits
  revert nextCreditId filed
  unfold Dated
  decide

/-- **Where the freshest hub names no credit** the pooled view redeems through the other hub, and
the report for the instance natively. -/
theorem not_viewsAgree_twoHubs :
    OnlyNative plainRuntime (twoHubs none).providers codexAccount codexProvider nativeLimits ∧
    ¬ViewsAgree plainRuntime (fun _ ↦ "") 0 "env" (twoHubs none) codexAccount codexProvider := by
  refine ⟨onlyNative_twoHubs none, fun hagree ↦ ?_⟩
  have hmeet := (viewsAgree_iff (keyIsOwn_twoHubs none (by decide)) (dated_twoHubs none (by decide))
    (by decide) (onlyNative_twoHubs none)).mp hagree
  have hfreshest : (freshestHub plainRuntime (twoHubs none).usageLimitSources codexAccount).any
      (fun hub ↦ !namesCredit hub) = true := by decide
  have hnamed : (creditHubs plainRuntime (twoHubs none).usageLimitSources codexAccount).any
      namesCredit = true := by decide
  obtain ⟨hub, hhub, hnone⟩ := (Option.any_eq_true _ _).mp hfreshest
  obtain ⟨named, hmem, hnames⟩ := List.any_eq_true.mp hnamed
  rcases hmeet hub hhub with h | h
  · simp [h] at hnone
  · simp [h.1 named hmem] at hnames

theorem limitViews_iff_twoHubs :
    PooledRight plainRuntime (OrderedMap.singleton "env" (twoHubs (some credit))) codexAccount ∧
    ViewsAgree plainRuntime (fun _ ↦ "") 0 "env" (twoHubs (some credit)) codexAccount
      codexProvider := by
  have hviews := limitViews_iff plainRuntime (fun _ ↦ "") 0
    (OrderedMap.singleton "env" (twoHubs (some credit))) codexAccount
    (keyIsOwn_twoHubs _ (by decide)) (dated_twoHubs _ (by decide))
  have hdistinct : ∀ filed ∈ filedReports plainRuntime
      (OrderedMap.singleton "env" (twoHubs (some credit))), ∀ other ∈ filedReports plainRuntime
      (OrderedMap.singleton "env" (twoHubs (some credit))),
      checkedTime plainRuntime filed.2.limits = checkedTime plainRuntime other.2.limits →
        filed.2.limits = other.2.limits := by decide
  refine ⟨hviews.1 fun a b ha hb ↦ ?_, (hviews.2 "env" _ codexProvider nativeLimits rfl
    (by decide) (onlyNative_twoHubs _)).mpr fun hub hhub ↦ .inl ?_⟩
  · obtain ⟨filed, hfiled, -, rfl⟩ := reported_iff.mp ha
    obtain ⟨other, hother, -, rfl⟩ := reported_iff.mp hb
    exact hdistinct filed hfiled other hother
  · have hnames : (freshestHub plainRuntime (twoHubs (some credit)).usageLimitSources
        codexAccount).all namesCredit = true := by decide
    exact (Option.all_eq_true _ _).mp hnames hub hhub

end Awen.Limits
