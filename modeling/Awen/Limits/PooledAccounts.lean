import Mathlib
import Awen.Library.FirstGreatest
import Awen.Library.Groups
import Awen.Limits.LimitAccounts

/-!
# What the pooled view shows

The pooled view merges the reports of all environments one after the other. Each account is merged
by itself: what the three tables hold for its key is a function of the reports that are filed under
that key (`PoolSlot`), and there the loop elects the freshest report, the freshest report that has
reset credits, and the freshest one that a hub redeems (`merged_hubRedeem`, `merged_creditSource`,
`limits_merged`).
-/

namespace Awen.Limits

variable {ω : Type*} (js : JsRuntime)

/-! ## Accounts and their keys -/

/-- A subscription account: a driver and a normalised e-mail. -/
structure Account where
  driver : ProviderDriverKind
  email : String
  deriving DecidableEq

def Account.key (account : Account) : String := account.driver.text ++ ":" ++ account.email

def accountOf (driver : ProviderDriverKind) (email : Option TrimmedNonEmptyString) :
    Option Account :=
  ((email.map fun email ↦ js.toLowerCase (trim email.text)).filter (· ≠ "")).map (Account.mk driver)

theorem accountKey_eq (driver : ProviderDriverKind) (email : Option TrimmedNonEmptyString) :
    accountKey js driver email = (accountOf js driver email).map Account.key := by
  rw [accountKey, accountOf, Option.map_map]
  rfl

theorem ProviderSlug.colon_not_mem (slug : ProviderSlug) : ':' ∉ slug.text.toList := by
  have hslug := slug.isSlug
  cases htext : slug.text.toList with
  | nil => exact List.not_mem_nil
  | cons c cs =>
    rw [htext, isProviderSlug, Bool.and_eq_true, List.all_eq_true] at hslug
    intro hmem
    rcases List.mem_cons.mp hmem with rfl | hmem
    · exact absurd hslug.1 (by decide)
    · exact absurd (hslug.2 _ hmem) (by decide)

/-- **The key of an account says which account it is.** -/
theorem Account.key_injective : Function.Injective Account.key := by
  intro a b h
  have hchars := congrArg String.toList h
  simp only [Account.key, String.toList_append, List.append_assoc] at hchars
  -- the driver is what comes before the first colon
  have hdriver : ∀ (slug : ProviderSlug) (email : List Char),
      (slug.text.toList ++ (":".toList ++ email)).takeWhile (· ≠ ':') = slug.text.toList := by
    intro slug email
    have hall : ∀ c ∈ slug.text.toList, decide (c ≠ ':') = true := fun c hc ↦
      decide_eq_true fun heq ↦ slug.colon_not_mem (heq ▸ hc)
    rw [List.takeWhile_append_of_pos hall]
    exact List.append_nil _
  have heq : a.driver.text.toList = b.driver.text.toList := by
    rw [← hdriver a.driver a.email.toList, hchars, hdriver]
  rw [heq, List.append_cancel_left_eq, List.append_cancel_left_eq, String.toList_inj] at hchars
  obtain ⟨⟨driver, _, _⟩, email⟩ := a
  obtain ⟨⟨driver', _, _⟩, email'⟩ := b
  obtain rfl : driver = driver' := String.toList_inj.mp heq
  obtain rfl : email = email' := hchars
  rfl

theorem accountKey_eq_some {driver : ProviderDriverKind} {email : Option TrimmedNonEmptyString}
    {account : Account} :
    accountKey js driver email = some account.key ↔ accountOf js driver email = some account := by
  rw [accountKey_eq, ← Option.map_some, (Option.map_injective Account.key_injective).eq_iff]

/-! ## Times -/

/-- The time of a report whose date can be read. -/
def checkedTime (limits : UsageLimits ω) : ℤ := (js.dateParse limits.checkedAt).getD 0

/-- The time of a report is a date. -/
def Dated (limits : UsageLimits ω) : Prop := (js.dateParse limits.checkedAt).isSome = true

variable {js}

theorem isFresher_eq {left right : UsageLimits ω} (hleft : Dated js left)
    (hright : Dated js right) :
    isFresher js left right = decide (checkedTime js right < checkedTime js left) := by
  obtain ⟨l, hl⟩ := Option.isSome_iff_exists.mp hleft
  obtain ⟨r, hr⟩ := Option.isSome_iff_exists.mp hright
  rw [isFresher, checkedTime, checkedTime, hl, hr]
  rfl

/-! ## One key of the pool -/

/-- Keep the report that is there, or take a fresher one of the kind that is looked for. -/
def elected (js : JsRuntime) (p : LimitAccount ω → Bool) (best? : Option (LimitAccount ω))
    (next : LimitAccount ω) : Option (LimitAccount ω) :=
  if p next && best?.all fun best ↦ isFresher js next.limits best.limits then some next else best?

theorem foldl_elected {p : LimitAccount ω → Bool} {reports : List (LimitAccount ω)}
    (hdated : ∀ report ∈ reports, Dated js report.limits) :
    reports.foldl (elected js p) none = (reports.filter p).argmax (checkedTime js ·.limits) := by
  induction reports using List.reverseRecOn with
  | nil => rfl
  | append_singleton reports next ih =>
    have ih := ih fun report hreport ↦ hdated report (List.mem_append_left _ hreport)
    rw [List.foldl_append, List.foldl_cons, List.foldl_nil, ih,
      ← foldl_greater?_filter_eq_argmax _ _ (reports ++ [next]), List.foldl_append, List.foldl_cons,
      List.foldl_nil, foldl_greater?_filter_eq_argmax, elected]
    cases hbest : (reports.filter p).argmax (checkedTime js ·.limits) with
    | none => rfl
    | some best =>
      have hmem := List.mem_of_mem_filter (List.argmax_mem hbest)
      rw [Option.all_some, Option.all_some, isFresher_eq
        (hdated next (List.mem_append_right _ List.mem_cons_self))
        (hdated best (List.mem_append_left _ hmem))]

/-- What the pool holds under one key. -/
structure PoolSlot (ω : Type*) where
  account : Option (LimitAccount ω)
  creditSource : Option (LimitAccount ω)
  hubRedeem : Option (LimitAccount ω)

def LimitPool.slot (pool : LimitPool ω) (key : String) : PoolSlot ω :=
  ⟨pool.accounts.get key, pool.creditSources.get key, pool.hubRedeems.get key⟩

def LimitAccount.hasCredits (account : LimitAccount ω) : Bool :=
  account.limits.resetCredits.isSome

def PoolSlot.merge (js : JsRuntime) (slot : PoolSlot ω) (next : LimitAccount ω) : PoolSlot ω :=
  let hubRedeem := elected js LimitAccount.redeemsThroughHub slot.hubRedeem next
  let creditSource := elected js LimitAccount.hasCredits slot.creditSource next
  { account := some <|
      match slot.account with
      | none => next
      | some previous => mergedAccount js hubRedeem creditSource previous next
    creditSource, hubRedeem }

theorem LimitPool.slot_merge_self (pool : LimitPool ω) (key : String) (next : LimitAccount ω) :
    (pool.merge js key next).slot key = (pool.slot key).merge js next := by
  have hset : ∀ (m : OrderedMap String (LimitAccount ω)) (c : Bool),
      (if c then m.set key next else m).get key = if c then some next else m.get key := by
    intro m c
    rw [apply_ite (OrderedMap.get · key), OrderedMap.get_set_self]
  simp only [slot, merge, PoolSlot.merge, elected, LimitAccount.hasCredits, hset,
    OrderedMap.get_set_self]
  cases pool.accounts.get key <;> rfl

theorem LimitPool.slot_merge_of_ne (pool : LimitPool ω) {key other : String} (h : other ≠ key)
    (next : LimitAccount ω) : (pool.merge js key next).slot other = pool.slot other := by
  have hset : ∀ (m : OrderedMap String (LimitAccount ω)) (c : Bool),
      (if c then m.set key next else m).get other = m.get other := by
    intro m c
    rw [apply_ite (OrderedMap.get · other), OrderedMap.get_set_of_ne h, ite_self]
  simp only [slot, merge, hset, OrderedMap.get_set_of_ne h]

/-- What merging reports of one key gives. -/
def merged (js : JsRuntime) (reports : List (LimitAccount ω)) : PoolSlot ω :=
  reports.foldl (PoolSlot.merge js) ⟨none, none, none⟩

/-- The reports that are filed under a key. -/
def reportsAt (filed : List (String × LimitAccount ω)) (key : String) : List (LimitAccount ω) :=
  (filed.filter fun report ↦ report.1 = key).map Prod.snd

/-- **Each key is merged by itself.** -/
theorem slot_foldl_merge (filed : List (String × LimitAccount ω)) (key : String) :
    (filed.foldl (fun pool report ↦ pool.merge js report.1 report.2) LimitPool.empty).slot key =
      merged js (reportsAt filed key) := by
  rw [@foldl_at_key _ _ _ _ _ _ LimitPool.slot (fun slot report ↦ slot.merge js report.2) _
    (fun pool report ↦ pool.slot_merge_self report.1 report.2)
    (fun pool report other hne ↦ pool.slot_merge_of_ne hne report.2), merged, reportsAt,
    List.foldl_map]
  rfl

theorem merged_concat (reports : List (LimitAccount ω)) (next : LimitAccount ω) :
    merged js (reports ++ [next]) = (merged js reports).merge js next := by
  rw [merged, List.foldl_append]
  rfl

/-- A further report is merged into the account with what the tables then hold. -/
theorem account_merged_concat {reports : List (LimitAccount ω)} {previous : LimitAccount ω}
    (h : (merged js reports).account = some previous) (next : LimitAccount ω) :
    (merged js (reports ++ [next])).account =
      some (mergedAccount js (merged js (reports ++ [next])).hubRedeem
        (merged js (reports ++ [next])).creditSource previous next) := by
  rw [merged_concat, PoolSlot.merge, h]

theorem limits_mergedAccount (hubRedeem creditSource : Option (LimitAccount ω))
    (previous next : LimitAccount ω) :
    (mergedAccount js hubRedeem creditSource previous next).limits =
      { (if isFresher js next.limits previous.limits then next else previous).limits with
        resetCredits := creditSource.bind (·.limits.resetCredits) } := rfl

theorem redeem_mergedAccount (hubRedeem creditSource : Option (LimitAccount ω))
    (previous next : LimitAccount ω) :
    (mergedAccount js hubRedeem creditSource previous next).redeem =
      (hubRedeem.bind (·.redeem)).or (creditSource.elim
        (((if isFresher js next.limits previous.limits then next else previous).redeem.or
          previous.redeem).or next.redeem) (·.redeem)) := by
  cases creditSource <;> rfl

theorem LimitAccount.exists_redeem {account : LimitAccount ω}
    (h : account.redeemsThroughHub = true) : ∃ redeem, account.redeem = some redeem := by
  rw [redeemsThroughHub] at h
  split at h
  next hredeem => exact ⟨_, hredeem⟩
  next => exact absurd h Bool.false_ne_true

/-! ## What is elected -/

section

variable {reports : List (LimitAccount ω)} (hdated : ∀ report ∈ reports, Dated js report.limits)
include hdated

theorem merged_hubRedeem : (merged js reports).hubRedeem =
    (reports.filter LimitAccount.redeemsThroughHub).argmax (checkedTime js ·.limits) := by
  rw [← foldl_elected hdated, merged]
  exact (List.foldl_hom PoolSlot.hubRedeem fun _ _ ↦ rfl).symm

theorem merged_creditSource : (merged js reports).creditSource =
    (reports.filter LimitAccount.hasCredits).argmax (checkedTime js ·.limits) := by
  rw [← foldl_elected hdated, merged]
  exact (List.foldl_hom PoolSlot.creditSource fun _ _ ↦ rfl).symm

end

/-- The credits of the freshest of the reports that have credits. -/
noncomputable def freshestCredits (js : JsRuntime) (reports : List (LimitAccount ω)) :
    Option ResetCredits :=
  ((reports.filter LimitAccount.hasCredits).argmax (checkedTime js ·.limits)).bind
    (·.limits.resetCredits)

/-- An account is named by the report that came first. -/
theorem account_merged (js : JsRuntime) (first : LimitAccount ω) (rest : List (LimitAccount ω)) :
    ∃ account, (merged js (first :: rest)).account = some account ∧
      account.driver = first.driver ∧ account.email = first.email := by
  induction rest using List.reverseRecOn with
  | nil => exact ⟨first, rfl, rfl, rfl⟩
  | append_singleton rest next ih =>
    obtain ⟨previous, hprevious, hdriver, hemail⟩ := ih
    rw [← List.cons_append, account_merged_concat hprevious]
    exact ⟨_, rfl, hdriver, hemail⟩

/-- **Merging elects the freshest report and the freshest credits.** -/
theorem limits_merged {first : LimitAccount ω} {rest : List (LimitAccount ω)}
    (hdated : ∀ report ∈ first :: rest, Dated js report.limits) {account : LimitAccount ω}
    (haccount : (merged js (first :: rest)).account = some account) :
    ∃ latest, (first :: rest).argmax (checkedTime js ·.limits) = some latest ∧
      account.limits =
        { latest.limits with resetCredits := freshestCredits js (first :: rest) } := by
  induction rest using List.reverseRecOn generalizing account with
  | nil =>
    obtain rfl := Option.some.inj haccount
    refine ⟨first, rfl, ?_⟩
    have hcredits : freshestCredits js [first] = first.limits.resetCredits := by
      cases h : first.limits.resetCredits with
      | none => simp [freshestCredits, LimitAccount.hasCredits, h]
      | some credits => simp [freshestCredits, LimitAccount.hasCredits, h]
    rw [hcredits]
  | append_singleton rest next ih =>
    rw [← List.cons_append] at haccount hdated ⊢
    have hrest : ∀ report ∈ first :: rest, Dated js report.limits :=
      fun report h ↦ hdated report (List.mem_append_left _ h)
    obtain ⟨previous, hprevious, -⟩ := account_merged js first rest
    obtain ⟨latest, hlatest, hlimits⟩ := ih hrest hprevious
    have htime : isFresher js next.limits previous.limits =
        decide (checkedTime js latest.limits < checkedTime js next.limits) := by
      have hprev : isFresher js next.limits previous.limits =
          isFresher js next.limits latest.limits := by rw [hlimits]; rfl
      rw [hprev, isFresher_eq (hdated next (List.mem_append_right _ List.mem_cons_self))
        (hrest latest (List.argmax_mem hlatest))]
    rw [account_merged_concat hprevious] at haccount
    obtain rfl := Option.some.inj haccount
    refine ⟨if checkedTime js latest.limits < checkedTime js next.limits then next else latest,
      ?_, ?_⟩
    · rw [List.argmax_concat, hlatest]
      exact (apply_ite some _ next latest).symm
    · rw [limits_mergedAccount, merged_creditSource hdated, htime, ← freshestCredits]
      by_cases hlt : checkedTime js latest.limits < checkedTime js next.limits
      · rw [if_pos (decide_eq_true hlt), if_pos hlt]
      · rw [if_neg (by simpa using hlt), if_neg hlt, hlimits]

/-- **Where one instance and hubs report an account**, the freshest hub that can redeem a credit
does; else what reports the credits on show does, and the instance where there are none. -/
theorem redeem_merged {native : LimitAccount ω} {hubs : List (LimitAccount ω)}
    (hdated : ∀ report ∈ native :: hubs, Dated js report.limits)
    (hnative : native.redeem.isSome = true) (hinstance : native.redeemsThroughHub = false)
    (hhubs : ∀ hub ∈ hubs, hub.redeem.isSome = true → hub.hasCredits = true) :
    (merged js (native :: hubs)).account.bind (·.redeem) =
      ((hubs.filter LimitAccount.redeemsThroughHub).argmax (checkedTime js ·.limits)).elim
        ((((native :: hubs).filter LimitAccount.hasCredits).argmax (checkedTime js ·.limits)).elim
          native.redeem (·.redeem)) (·.redeem) := by
  induction hubs using List.reverseRecOn with
  | nil =>
    cases hcredits : native.hasCredits with
    | false => simp [merged, PoolSlot.merge, hcredits]
    | true => simp [merged, PoolSlot.merge, hcredits]
  | append_singleton hubs next ih =>
    rw [← List.cons_append] at hdated ⊢
    obtain ⟨previous, hprevious, -⟩ := account_merged js native hubs
    have ih := ih (fun report h ↦ hdated report (List.mem_append_left _ h))
      fun hub hhub ↦ hhubs hub (List.mem_append_left _ hhub)
    have hfilter : (native :: hubs ++ [next]).filter LimitAccount.redeemsThroughHub =
        (hubs ++ [next]).filter LimitAccount.redeemsThroughHub := by
      rw [List.cons_append, List.filter_cons_of_neg (by simp [hinstance])]
    rw [account_merged_concat hprevious, Option.bind_some, redeem_mergedAccount,
      merged_hubRedeem hdated, merged_creditSource hdated, hfilter]
    cases hhub : ((hubs ++ [next]).filter LimitAccount.redeemsThroughHub).argmax
        (checkedTime js ·.limits) with
    | some hub =>
      obtain ⟨redeem, hredeem⟩ :=
        hub.exists_redeem (List.of_mem_filter (List.argmax_mem hhub))
      rw [Option.bind_some, Option.elim_some, hredeem, Option.some_or]
    | none =>
      cases hcredit : ((native :: hubs ++ [next]).filter LimitAccount.hasCredits).argmax
          (checkedTime js ·.limits) with
      | some creditSource => rfl
      | none =>
        -- nobody has credits, so no hub redeems and what there was came from the instance
        rw [List.argmax_eq_none] at hhub hcredit
        rw [List.filter_append, List.append_eq_nil_iff] at hhub hcredit
        rw [hhub.1, hcredit.1, hprevious] at ih
        have hnext : next.redeem = none := by
          by_contra hsome
          have hcredits := hhubs next (List.mem_append_right _ List.mem_cons_self)
            (Option.isSome_iff_ne_none.mpr hsome)
          exact List.filter_eq_nil_iff.mp hcredit.2 next List.mem_cons_self hcredits
        have hprev : previous.redeem = native.redeem := ih
        obtain ⟨redeem, hredeem⟩ := Option.isSome_iff_exists.mp hnative
        rw [apply_ite LimitAccount.redeem, hnext, hprev, hredeem]
        split <;> rfl

/-! ## The entries of the view -/

/-- The reports of an account, by instances that it is signed in on and by hubs. -/
inductive Reported (js : JsRuntime) (presentations : OrderedMap String (LimitPresentation ω))
    (account : Account) (limits : UsageLimits ω) : Prop where
  | native {environmentId : String} {presentation : LimitPresentation ω}
      {provider : ServerProvider ω}
      (hentry : (environmentId, presentation) ∈ presentations.entries)
      (hprovider : provider ∈ providersWithLimits presentation.providers)
      (haccount : accountOf js provider.driver provider.auth.email = some account)
      (hlimits : provider.usageLimits = some limits) (husable : limitsNotice limits = none)
  | hub {environmentId : String} {presentation : LimitPresentation ω}
      {source : UsageLimitSource ω} {reported : UsageLimitSourceAccount ω}
      (hentry : (environmentId, presentation) ∈ presentations.entries)
      (hsource : source ∈ presentation.usageLimitSources) (hreported : reported ∈ source.accounts)
      (haccount : accountOf js reported.driver reported.email = some account)
      (hlimits : reported.usageLimits = limits) (husable : limitsNotice limits = none)

/-- The account that a pooled entry is about. -/
def LimitAccount.account? (js : JsRuntime) (entry : LimitAccount ω) : Option Account :=
  accountOf js entry.driver entry.email

/-- Nothing else is filed under the key of an account: no report without an e-mail has a fallback
key that reads like it. -/
def KeyIsOwn (js : JsRuntime) (presentations : OrderedMap String (LimitPresentation ω))
    (account : Account) : Prop :=
  ∀ filed ∈ filedReports js presentations, filed.1 = account.key →
    filed.2.account? js = some account

variable {presentations : OrderedMap String (LimitPresentation ω)} {account : Account}

theorem nativeAccount?_eq_some {environmentId label : String} {provider : ServerProvider ω}
    {filed : String × LimitAccount ω} :
    nativeAccount? js environmentId label provider = some filed ↔
      ∃ limits, provider.usageLimits = some limits ∧ limitsNotice limits = none ∧
        filed = ((accountKey js provider.driver provider.auth.email).getD
          (environmentId ++ ":" ++ provider.instanceId.text),
          nativeAccount environmentId label provider limits) := by
  rw [nativeAccount?]
  cases provider.usageLimits with
  | none => simp
  | some limits =>
    cases hnotice : limitsNotice limits with
    | none => simp [hnotice, eq_comm]
    | some notice => simp [hnotice]

theorem hubAccount?_eq_some {environmentId sourceLabel : String} {source : UsageLimitSource ω}
    {reported : UsageLimitSourceAccount ω} {filed : String × LimitAccount ω} :
    hubAccount? js environmentId sourceLabel source reported = some filed ↔
      limitsNotice reported.usageLimits = none ∧
        filed = ((accountKey js reported.driver reported.email).getD
          (source.id ++ ":" ++ reported.id),
          hubAccount environmentId sourceLabel source reported) := by
  rw [hubAccount?]
  cases hnotice : limitsNotice reported.usageLimits with
  | none => simp [eq_comm]
  | some notice => simp

/-- What is filed: a usable report of an instance, or one of a hub. -/
theorem mem_filedReports {filed : String × LimitAccount ω} :
    filed ∈ filedReports js presentations ↔
      (∃ entry ∈ presentations.entries, ∃ provider ∈ providersWithLimits entry.2.providers,
        nativeAccount? js entry.1 entry.2.label provider = some filed) ∨
      ∃ entry ∈ presentations.entries, ∃ source ∈ entry.2.usageLimitSources,
        ∃ reported ∈ source.accounts, hubAccount? js entry.1
          (if decide (presentations.size > 1) then entry.2.label ++ " · " ++ source.label
            else source.label) source reported = some filed := by
  simp only [filedReports, nativeAccounts, hubAccounts, List.mem_append, List.mem_flatMap,
    List.mem_filterMap]

/-- The key of a report with an account is the key of the account. -/
theorem key_of_account? {filed : String × LimitAccount ω}
    (hfiled : filed ∈ filedReports js presentations) (h : filed.2.account? js = some account) :
    filed.1 = account.key := by
  rcases mem_filedReports.mp hfiled with ⟨_, _, _, _, hnative⟩ | ⟨_, _, _, _, _, _, hhub⟩
  · obtain ⟨_, _, _, rfl⟩ := nativeAccount?_eq_some.mp hnative
    have hkey := (accountKey_eq_some js).mpr h
    exact congrArg (Option.getD · _) hkey
  · obtain ⟨_, rfl⟩ := hubAccount?_eq_some.mp hhub
    have hkey := (accountKey_eq_some js).mpr h
    exact congrArg (Option.getD · _) hkey

theorem reported_iff {limits : UsageLimits ω} : Reported js presentations account limits ↔
    ∃ filed ∈ filedReports js presentations,
      filed.2.account? js = some account ∧ filed.2.limits = limits := by
  constructor
  · rintro (⟨hentry, hprovider, haccount, hlimits, husable⟩ |
      ⟨hentry, hsource, hreported, haccount, hlimits, husable⟩)
    · exact ⟨_, mem_filedReports.mpr (.inl ⟨_, hentry, _, hprovider,
        nativeAccount?_eq_some.mpr ⟨limits, hlimits, husable, rfl⟩⟩), haccount, rfl⟩
    · subst hlimits
      exact ⟨_, mem_filedReports.mpr (.inr ⟨_, hentry, _, hsource, _, hreported,
        hubAccount?_eq_some.mpr ⟨husable, rfl⟩⟩), haccount, rfl⟩
  · rintro ⟨filed, hfiled, haccount, rfl⟩
    rcases mem_filedReports.mp hfiled with
      ⟨entry, hentry, provider, hprovider, hnative⟩ |
      ⟨entry, hentry, source, hsource, reported, hreported, hhub⟩
    · obtain ⟨limits, hlimits, husable, rfl⟩ := nativeAccount?_eq_some.mp hnative
      exact .native hentry hprovider haccount hlimits husable
    · obtain ⟨husable, rfl⟩ := hubAccount?_eq_some.mp hhub
      exact .hub hentry hsource hreported haccount rfl husable

/-- The reports under the key of an account, where nothing else is filed there. -/
theorem mem_reportsAt (hown : KeyIsOwn js presentations account) {report : LimitAccount ω} :
    report ∈ reportsAt (filedReports js presentations) account.key ↔
      ∃ filed ∈ filedReports js presentations,
        filed.2.account? js = some account ∧ filed.2 = report := by
  rw [reportsAt, List.mem_map]
  constructor
  · rintro ⟨filed, hfiled, rfl⟩
    obtain ⟨hfiled, hkey⟩ := List.mem_filter.mp hfiled
    exact ⟨filed, hfiled, hown filed hfiled (of_decide_eq_true hkey), rfl⟩
  · rintro ⟨filed, hfiled, haccount, rfl⟩
    exact ⟨filed, List.mem_filter.mpr
      ⟨hfiled, decide_eq_true (key_of_account? hfiled haccount)⟩, rfl⟩

/-- Every entry of the view is what the reports of its key were merged into. -/
theorem mem_entries_merged {filed : List (String × LimitAccount ω)} {key : String}
    {entry : LimitAccount ω} :
    (key, entry) ∈ (filed.foldl (fun pool report ↦ pool.merge js report.1 report.2)
      LimitPool.empty).accounts.entries ↔
    (merged js (reportsAt filed key)).account = some entry := by
  rw [← slot_foldl_merge, LimitPool.slot, OrderedMap.get_eq_some]

/-- **The entries about an account** are the one that its reports were merged into. -/
theorem filter_collectLimitAccounts (hown : KeyIsOwn js presentations account) :
    (collectLimitAccounts js presentations).filter (fun entry ↦ entry.account? js = some account) =
      (merged js (reportsAt (filedReports js presentations) account.key)).account.toList := by
  rw [collectLimitAccounts, OrderedMap.values, List.filter_map, ← slot_foldl_merge,
    LimitPool.slot, ← OrderedMap.map_filter_key]
  refine congrArg (List.map Prod.snd) (List.filter_congr fun held hheld ↦ ?_)
  obtain ⟨key, entry⟩ := held
  have hentry := mem_entries_merged.mp hheld
  cases hreports : reportsAt (filedReports js presentations) key with
  | nil =>
    rw [hreports] at hentry
    cases hentry
  | cons first rest =>
    rw [hreports] at hentry
    obtain ⟨named, hnamed, hdriver, hemail⟩ := account_merged js first rest
    obtain rfl : entry = named := Option.some.inj (hentry.symm.trans hnamed)
    have haccount : entry.account? js = first.account? js := by
      rw [LimitAccount.account?, hdriver, hemail, LimitAccount.account?]
    have hfirst : first ∈ reportsAt (filedReports js presentations) key :=
      hreports ▸ List.mem_cons_self
    obtain ⟨filed, hfiled, rfl⟩ := List.mem_map.mp hfirst
    obtain ⟨hfiled, hkey⟩ := List.mem_filter.mp hfiled
    rw [Function.comp_apply, decide_eq_decide, haccount, ← of_decide_eq_true hkey]
    exact ⟨key_of_account? hfiled, hown filed hfiled⟩

/-! ## What is shown of an account -/

/-- A report of a kind that is not older than any other of the kind. -/
def Freshest (js : JsRuntime) (kind : UsageLimits ω → Prop) (limits : UsageLimits ω) : Prop :=
  kind limits ∧ ∀ other, kind other → checkedTime js other ≤ checkedTime js limits

/-- **The pooled view is right about an account.** -/
structure PooledRight (js : JsRuntime) (presentations : OrderedMap String (LimitPresentation ω))
    (account : Account) : Prop where
  none_of_not_reported : (∀ limits, ¬Reported js presentations account limits) →
    (collectLimitAccounts js presentations).filter
      (fun entry ↦ entry.account? js = some account) = []
  one_of_reported : (∃ limits, Reported js presentations account limits) →
    ∃ entry, (collectLimitAccounts js presentations).filter
        (fun entry ↦ entry.account? js = some account) = [entry] ∧
      (∀ limits, Freshest js (Reported js presentations account) limits →
        entry.limits.windows = limits.windows) ∧
      (∀ limits, Freshest js (fun limits ↦ Reported js presentations account limits ∧
          limits.resetCredits.isSome = true) limits →
        entry.limits.resetCredits = limits.resetCredits) ∧
      ((∀ limits, Reported js presentations account limits → limits.resetCredits = none) →
        entry.limits.resetCredits = none)

/-- Reports that are told apart by their times have one freshest. -/
theorem limits_eq_of_argmax {reports : List (LimitAccount ω)} {kind : UsageLimits ω → Prop}
    {latest : LimitAccount ω} {limits : UsageLimits ω}
    (hlatest : reports.argmax (checkedTime js ·.limits) = some latest)
    (hkind : ∀ limits, kind limits ↔ ∃ report ∈ reports, report.limits = limits)
    (hdistinct : ∀ a b, kind a → kind b → checkedTime js a = checkedTime js b → a = b)
    (hlimits : Freshest js kind limits) : latest.limits = limits := by
  have hmem := (hkind _).mpr ⟨latest, List.argmax_mem hlatest, rfl⟩
  obtain ⟨report, hreport, rfl⟩ := (hkind _).mp hlimits.1
  exact hdistinct _ _ hmem hlimits.1 (le_antisymm (hlimits.2 _ hmem)
    (List.le_of_mem_argmax (f := (checkedTime js ·.limits)) hreport hlatest))

theorem pooledRight (hown : KeyIsOwn js presentations account)
    (hdated : ∀ limits, Reported js presentations account limits → Dated js limits)
    (hdistinct : ∀ a b, Reported js presentations account a → Reported js presentations account b →
      checkedTime js a = checkedTime js b → a = b) : PooledRight js presentations account := by
  have hreported : ∀ limits, Reported js presentations account limits ↔
      ∃ report ∈ reportsAt (filedReports js presentations) account.key,
        report.limits = limits := by
    intro limits
    rw [reported_iff]
    constructor
    · rintro ⟨filed, hfiled, haccount, rfl⟩
      exact ⟨_, (mem_reportsAt hown).mpr ⟨filed, hfiled, haccount, rfl⟩, rfl⟩
    · rintro ⟨report, hreport, rfl⟩
      obtain ⟨filed, hfiled, haccount, rfl⟩ := (mem_reportsAt hown).mp hreport
      exact ⟨filed, hfiled, haccount, rfl⟩
  constructor
  · intro hnone
    rw [filter_collectLimitAccounts hown]
    have hnil : reportsAt (filedReports js presentations) account.key = [] :=
      List.eq_nil_iff_forall_not_mem.mpr fun report hreport ↦
        hnone _ ((hreported _).mpr ⟨report, hreport, rfl⟩)
    rw [hnil]
    rfl
  · rintro ⟨limits, hlimits⟩
    rw [filter_collectLimitAccounts hown]
    cases hreports : reportsAt (filedReports js presentations) account.key with
    | nil =>
      obtain ⟨report, hreport, -⟩ := (hreported _).mp hlimits
      rw [hreports] at hreport
      exact absurd hreport List.not_mem_nil
    | cons first rest =>
      rw [hreports] at hreported
      obtain ⟨entry, hentry, -⟩ := account_merged js first rest
      have hdated' : ∀ report ∈ first :: rest, Dated js report.limits := fun report hreport ↦
        hdated _ ((hreported _).mpr ⟨report, hreport, rfl⟩)
      obtain ⟨latest, hlatest, heq⟩ := limits_merged hdated' hentry
      rw [hentry]
      refine ⟨entry, rfl, fun limits hfresh ↦ ?_, fun limits hfresh ↦ ?_, fun hnone ↦ ?_⟩
      · rw [heq, ← limits_eq_of_argmax hlatest hreported hdistinct hfresh]
      · have hcredited : ∀ limits, (Reported js presentations account limits ∧
            limits.resetCredits.isSome = true) ↔
            ∃ report ∈ (first :: rest).filter LimitAccount.hasCredits, report.limits = limits := by
          intro limits
          rw [hreported]
          constructor
          · rintro ⟨⟨report, hreport, rfl⟩, hcredits⟩
            exact ⟨report, List.mem_filter.mpr ⟨hreport, hcredits⟩, rfl⟩
          · rintro ⟨report, hreport, rfl⟩
            obtain ⟨hreport, hcredits⟩ := List.mem_filter.mp hreport
            exact ⟨⟨report, hreport, rfl⟩, hcredits⟩
        rw [heq, freshestCredits]
        cases hsource : ((first :: rest).filter LimitAccount.hasCredits).argmax
            (checkedTime js ·.limits) with
        | none =>
          obtain ⟨report, hreport, -⟩ := (hcredited _).mp hfresh.1
          rw [List.argmax_eq_none.mp hsource] at hreport
          exact absurd hreport List.not_mem_nil
        | some source =>
          rw [← limits_eq_of_argmax hsource hcredited
            (fun a b ha hb ↦ hdistinct a b ha.1 hb.1) hfresh]
          rfl
      · have hnil : (first :: rest).filter LimitAccount.hasCredits = [] := by
          refine List.filter_eq_nil_iff.mpr fun report hreport hcredits ↦ ?_
          rw [LimitAccount.hasCredits, hnone _ ((hreported _).mpr ⟨report, hreport, rfl⟩)]
            at hcredits
          exact absurd hcredits (by decide)
        rw [heq, freshestCredits, hnil]
        rfl

end Awen.Limits
