import Awen.Vcs.ConfigValues
import Awen.Vcs.GitStatus

/-!
# The origin URL of a configuration

`parseOriginUrlFromGitConfig` reads URLs off the logical lines of a configuration (`urlsRead`), and
its result is the first that it has read in the section of `origin`, or else the first at all
(`parseOriginUrlFromGitConfig_configText`). Three things are lost on the way: a line that ends in an
escaped backslash takes the next line with it, outer white space of a value goes even inside double
quotes, and a value with a Unicode line separator is not read. What remains is what was written in
the configurations that have none of these (`readsOriginUrl_of_plain`).
-/

namespace Awen.Vcs

open Composer (isSpaceUnit lowerUnit trimEnd after? trim_eq_self_iff)

/-! ## What is read -/

/-- The URLs that are read off logical lines, each with its remote. -/
def urlsRead (remote : Option CodeUnits) :
    List (ConfigLine × CodeUnits) → List (CodeUnits × CodeUnits)
  | [] => []
  | (.remoteHeader name, _) :: lines => urlsRead (if name = [] then none else some name) lines
  | (.header _ _, _) :: lines => urlsRead none lines
  | (.comment _, _) :: lines => urlsRead remote lines
  | (.setting key value, more) :: lines =>
    match isUrlKey key, remote, urlRead value more with
    | true, some name, some url => (name, url) :: urlsRead remote lines
    | _, _, _ => urlsRead remote lines

/-- The first URL of `origin`, or else the first one. -/
def primaryUrl (urls : List (CodeUnits × CodeUnits)) : Option CodeUnits :=
  (urls.find? (·.1 = originName)).map (·.2) <|> urls.head?.map (·.2)

theorem urlsRead_setting (remote : Option CodeUnits) (key value more : CodeUnits)
    (lines : List (ConfigLine × CodeUnits)) :
    urlsRead remote ((.setting key value, more) :: lines) =
      match isUrlKey key, remote, urlRead value more with
      | true, some name, some url => (name, url) :: urlsRead remote lines
      | _, _, _ => urlsRead remote lines := rfl

/-- The URL wanted is the first that is read of those of `origin`, or else of all. -/
def ReadsOriginUrl (lines : List ConfigLine) : Prop :=
  primaryUrl (urlsRead none (logicalLines lines)) = originUrlOf (remotesOf lines)

/-! ## Reading a line -/

variable (toLowerCase : CodeUnits → CodeUnits)

theorem afterIgnoringCase?_append {start key rest : CodeUnits}
    (h : key.map lowerUnit = start) : afterIgnoringCase? start (key ++ rest) = some rest := by
  have hpre : start.isPrefixOf ((key ++ rest).map lowerUnit) = true := by
    rw [List.isPrefixOf_iff_prefix, List.map_append, h]
    exact List.prefix_append _ _
  rw [afterIgnoringCase?, if_pos hpre, ← h, List.length_map, List.drop_left]

/-- What is behind a start has not started before a unit that the start does not have. -/
theorem afterIgnoringCase?_eq_some {start key rest behind : CodeUnits} {u : UInt16}
    (hu : lowerUnit u ∉ start) (h : afterIgnoringCase? start (key ++ u :: rest) = some behind) :
    ∃ more, key.drop start.length = more ∧ behind = more ++ u :: rest ∧
      start <+: key.map lowerUnit := by
  rw [afterIgnoringCase?] at h
  split at h
  next hpre =>
    rw [List.isPrefixOf_iff_prefix, List.map_append, List.map_cons] at hpre
    have hkey : start <+: key.map lowerUnit := by
      rcases List.prefix_or_prefix_of_prefix hpre (List.prefix_append _ _) with
        hkey | ⟨more, hmore⟩
      · exact hkey
      · cases more with
        | nil => exact (hmore.symm.trans (List.append_nil _)) ▸ List.prefix_refl _
        | cons v more =>
          rw [← hmore, List.prefix_append_right_inj, List.cons_prefix_cons] at hpre
          refine absurd ?_ hu
          rw [← hmore, ← hpre.1]
          exact List.mem_append_right _ List.mem_cons_self
    have hle := hkey.length_le
    rw [List.length_map] at hle
    cases h
    exact ⟨_, rfl, List.drop_append_of_le_length hle, hkey⟩
  next => cases h

theorem after?_cons_self (u : UInt16) (rest : CodeUnits) : after? [u] (u :: rest) = some rest := by
  rw [after?, if_pos]
  · rfl
  · exact List.isPrefixOf_iff_prefix.mpr ⟨rest, rfl⟩

/-- The value of a setting, if it is that of a URL. -/
theorem urlValue_setting {key : CodeUnits} (hkey : ∀ u ∈ key, isNameUnit u = true)
    (raw : CodeUnits) :
    urlValue (key ++ 0x20 :: 0x3d :: trimEnd (0x20 :: raw)) =
      if isUrlKey key = true ∧ (Composer.trim raw).any isLineTerminator = false then
        some (Composer.trim raw)
      else none := by
  have hvalue : (trimEnd (0x20 :: raw)).dropWhile isSpaceUnit = Composer.trim raw :=
    (dropWhile_trimEnd _).trans (trim_space_cons rfl raw)
  rw [urlValue]
  by_cases hurl : isUrlKey key = true
  · rw [afterIgnoringCase?_append (eq_of_beq hurl)]
    have hequals : after? [0x3d] ((0x20 :: 0x3d :: trimEnd (0x20 :: raw)).dropWhile isSpaceUnit) =
        some (trimEnd (0x20 :: raw)) := after?_cons_self _ _
    dsimp only
    rw [hequals]
    dsimp only
    rw [hvalue]
    cases (Composer.trim raw).any isLineTerminator <;> simp [hurl]
  · rw [if_neg fun h ↦ hurl h.1]
    cases hbehind : afterIgnoringCase? (unitsOf "url")
        (key ++ 0x20 :: 0x3d :: trimEnd (0x20 :: raw)) with
    | none => rfl
    | some behind =>
      obtain ⟨more, hmore, rfl, hpre⟩ := afterIgnoringCase?_eq_some (by decide) hbehind
      dsimp only
      cases more with
      | nil =>
        -- the key is `url`
        refine absurd (beq_iff_eq.mpr (hpre.eq_of_length ?_).symm) hurl
        have hle := hpre.length_le
        have hlength := congrArg List.length hmore
        rw [List.length_drop] at hlength
        rw [List.length_map] at hle ⊢
        exact Nat.le_antisymm hle (Nat.sub_eq_zero_iff_le.mp hlength)
      | cons u more =>
        have hu := isNameUnit_spec (hkey u (List.mem_of_mem_drop (hmore ▸ List.mem_cons_self)))
        rw [List.cons_append, List.dropWhile_cons_of_neg (by rw [hu.2.2.1]; exact nofun),
          after?_cons_of_ne hu.2.2.2.2.2.2.2.1]

theorem head?_not_mark {u : UInt16} (hu : isCommentMark u = false) (rest : CodeUnits) :
    ¬(u :: rest = [] ∨ (u :: rest).head?.any isCommentMark = true) := by
  rintro (h | h)
  · cases h
  · rw [List.head?_cons, Option.any_some, hu] at h
    cases h

/-- What a reading keeps of a URL. -/
def ConfigReading.addUrl (s : ConfigReading) (url : CodeUnits × CodeUnits) : ConfigReading :=
  if url.1 = originName then { s with originUrl := s.originUrl <|> some url.2 }
  else { s with firstRemoteUrl := s.firstRemoteUrl <|> some url.2 }

theorem readLine_setting {key : CodeUnits} (hne : key ≠ [])
    (hkey : ∀ u ∈ key, isNameUnit u = true) (raw : CodeUnits) (s : ConfigReading) :
    s.readLine toLowerCase (0x9 :: (key ++ 0x20 :: 0x3d :: 0x20 :: raw)) =
      match isUrlKey key, s.remote, textRead raw with
      | true, some name, some url => s.addUrl (name, url)
      | _, _, _ => s := by
  obtain ⟨u, rest, rfl⟩ := List.exists_cons_of_ne_nil hne
  have hu := isNameUnit_spec (hkey u List.mem_cons_self)
  have htrim : Composer.trim (0x9 :: (u :: rest ++ 0x20 :: 0x3d :: 0x20 :: raw)) =
      u :: rest ++ 0x20 :: 0x3d :: trimEnd (0x20 :: raw) := by
    have hhead := @trim_append_cons [0x9] (by decide) u hu.2.2.1
      (rest ++ 0x20 :: 0x3d :: 0x20 :: raw)
    have hequals : rest ++ 0x20 :: 0x3d :: 0x20 :: raw =
        (rest ++ [0x20]) ++ 0x3d :: 0x20 :: raw := by
      rw [List.append_assoc]
      rfl
    refine hhead.trans ?_
    rw [hequals, trimEnd_append_cons _ (by decide), List.append_assoc]
    rfl
  have hheader : remoteOfHeader toLowerCase (u :: rest ++ 0x20 :: 0x3d :: trimEnd (0x20 :: raw)) =
      none := by
    rw [remoteOfHeader, List.cons_append, after?_cons_of_ne hu.2.2.2.2.2.1]
  have hbracket : ¬(u :: rest ++ 0x20 :: 0x3d :: trimEnd (0x20 :: raw)).head? = some 0x5b :=
    fun h ↦ hu.2.2.2.2.2.1 (Option.some.inj h)
  have hmark : ¬(u :: rest ++ 0x20 :: 0x3d :: trimEnd (0x20 :: raw) = [] ∨
      (u :: rest ++ 0x20 :: 0x3d :: trimEnd (0x20 :: raw)).head?.any isCommentMark = true) :=
    head?_not_mark hu.2.2.2.1 _
  rw [ConfigReading.readLine, htrim, if_neg hmark, hheader]
  dsimp only
  rw [if_neg hbracket, urlValue_setting hkey, textRead]
  cases isUrlKey (u :: rest) with
  | false => cases s.remote <;> rfl
  | true =>
    cases s.remote with
    | none => rfl
    | some name =>
      cases hany : (Composer.trim raw).any isLineTerminator with
      | true => simp
      | false =>
        by_cases hurl : parseGitConfigValue (Composer.trim raw) = []
        · simp [ConfigReading.readUrl, hurl]
        · simp [ConfigReading.readUrl, ConfigReading.addUrl, hurl]

theorem readLine_comment {text : CodeUnits}
    (h : (text.dropWhile isBlankUnit).head?.any isCommentMark = true) (more : CodeUnits)
    (s : ConfigReading) :
    s.readLine toLowerCase ((ConfigLine.comment text).joined more) = s := by
  obtain ⟨u, hhead, hmark⟩ := (Option.any_eq_true _ _).mp h
  obtain ⟨rest, hrest⟩ := List.head?_eq_some_iff.mp hhead
  have hblanks : ∀ v ∈ text.takeWhile isBlankUnit, isSpaceUnit v = true := by
    intro v hv
    have hblank := List.mem_takeWhile_imp hv
    rw [isBlankUnit, Bool.or_eq_true, beq_iff_eq, beq_iff_eq] at hblank
    rcases hblank with rfl | rfl <;> rfl
  have hspace : isSpaceUnit u = false ∧ u ≠ 0x5c := by
    rw [isCommentMark, Bool.or_eq_true, beq_iff_eq, beq_iff_eq] at hmark
    rcases hmark with rfl | rfl
    · exact ⟨rfl, by decide⟩
    · exact ⟨rfl, by decide⟩
  have htext : text = text.takeWhile isBlankUnit ++ u :: rest := by
    rw [← hrest, List.takeWhile_append_dropWhile]
  -- what is joined stands behind the mark
  obtain ⟨behind, hjoined⟩ : ∃ behind,
      (ConfigLine.comment text).joined more = text.takeWhile isBlankUnit ++ u :: behind := by
    rw [ConfigLine.joined]
    split
    next hcont =>
      cases rest with
      | nil =>
        rw [ConfigLine.continues, ConfigLine.text, htext, List.getLast?_concat] at hcont
        exact absurd (Option.some.inj (eq_of_beq hcont)) hspace.2
      | cons v rest =>
        refine ⟨(v :: rest).dropLast ++ more, ?_⟩
        conv_lhs => rw [ConfigLine.text, htext]
        rw [List.dropLast_append_of_ne_nil (List.cons_ne_nil _ _), List.append_assoc]
        rfl
    next => exact ⟨rest, htext⟩
  rw [ConfigReading.readLine, hjoined, trim_append_cons hblanks hspace.1]
  exact if_pos (.inr ((Option.any_some ..).trans hmark))

theorem readLine_bracket {inside : CodeUnits} (s : ConfigReading) :
    s.readLine toLowerCase (0x5b :: (inside ++ [0x5d])) =
      { s with remote := remoteOfHeader toLowerCase (0x5b :: (inside ++ [0x5d])) } := by
  have htrim : Composer.trim (0x5b :: (inside ++ [0x5d])) = 0x5b :: (inside ++ [0x5d]) := by
    refine trim_eq_self_iff.mpr ⟨fun u hu ↦ by cases hu; rfl, fun u hu ↦ ?_⟩
    rw [← List.cons_append, List.getLast?_concat] at hu
    cases hu
    rfl
  rw [ConfigReading.readLine, htrim, if_neg (head?_not_mark rfl _)]
  cases remoteOfHeader toLowerCase (0x5b :: (inside ++ [0x5d])) with
  | none => exact if_pos rfl
  | some name => rfl

theorem dottedSubsection_cons_of_ne {u : UInt16} (hu : u ≠ 0x2e) (text : CodeUnits) :
    dottedSubsection (u :: text) = none := by
  rw [dottedSubsection, after?_cons_of_ne hu]

theorem quotedSubsection_cons_of_not_space {u : UInt16} (hu : isSpaceUnit u = false)
    (text : CodeUnits) : quotedSubsection (u :: text) = none := by
  rw [quotedSubsection, List.head?_cons, Option.any_some, hu]
  rfl

/-- The header of a remote names it, unless its name is empty. -/
theorem remoteOfHeader_remoteHeader {name : CodeUnits} (hname : ∀ u ∈ name, u ≠ 0x22) :
    remoteOfHeader toLowerCase (ConfigLine.remoteHeader name).text =
      if name = [] then none else some name := by
  have hdrop (rest : CodeUnits) : (unitsOf "remote" ++ rest).dropWhile isSpaceUnit =
      unitsOf "remote" ++ rest := rfl
  have hrest : (0x20 :: 0x22 :: (name ++ [0x22, 0x5d])).dropWhile isSpaceUnit =
      0x22 :: (name ++ [0x22, 0x5d]) := rfl
  have htake : (name ++ [0x22, 0x5d]).takeWhile (· != 0x22) = name := by
    rw [List.takeWhile_append_of_pos fun u hu ↦ bne_iff_ne.mpr (hname u hu)]
    exact List.append_nil name
  have hquoted : quotedSubsection (0x20 :: 0x22 :: (name ++ [0x22, 0x5d])) =
      if name = [] then none else some (name, [0x5d]) := by
    have hspace : (0x20 :: 0x22 :: (name ++ [0x22, 0x5d])).head?.any isSpaceUnit = true := rfl
    rw [quotedSubsection, if_pos hspace, hrest, after?_cons_self]
    dsimp only
    rw [htake, List.drop_left, after?_cons_self]
    rfl
  rw [ConfigLine.text, remoteOfHeader, after?_cons_self]
  dsimp only
  rw [hdrop, afterIgnoringCase?_append (by decide)]
  dsimp only
  rw [hquoted]
  by_cases hempty : name = []
  · rw [if_pos hempty, if_pos hempty]
    dsimp only
    rw [dottedSubsection_cons_of_ne (by decide)]
  · rw [if_neg hempty, if_neg hempty]
    rfl

/-- The header of another section names no remote. -/
theorem remoteOfHeader_header {name : CodeUnits} {subsection : Option CodeUnits}
    (h : (ConfigLine.header name subsection).IsWritten) :
    remoteOfHeader toLowerCase (ConfigLine.header name subsection).text = none := by
  have hunits : ∀ u ∈ name, isSpaceUnit u = false ∧ u ≠ 0x5d := by
    have hname : ∀ u ∈ name, isNameUnit u = true ∨ u = 0x2e := by
      cases subsection with
      | none => exact h.2.1
      | some subsection => exact h.2.1
    intro u hu
    rcases hname u hu with hu | rfl
    · exact ⟨(isNameUnit_spec hu).2.2.1, (isNameUnit_spec hu).2.2.2.2.2.2.1⟩
    · exact ⟨rfl, by decide⟩
  have hne : name ≠ [] := by
    cases subsection with
    | none => exact h.1
    | some subsection => exact h.1
  -- what stands behind the name
  obtain ⟨u, rest, htext, hu⟩ : ∃ u rest,
      (ConfigLine.header name subsection).text = 0x5b :: (name ++ u :: rest) ∧
        (u = 0x5d ∧ subsection = none ∨ u = 0x20 ∧ rest.head? = some 0x22 ∧ subsection ≠ none) := by
    cases subsection with
    | none => exact ⟨_, _, rfl, .inl ⟨rfl, rfl⟩⟩
    | some subsection => exact ⟨_, _, rfl, .inr ⟨rfl, rfl, nofun⟩⟩
  have hlower : lowerUnit u ∉ unitsOf "remote" := by
    rcases hu with ⟨rfl, -⟩ | ⟨rfl, -⟩ <;> decide
  rw [htext, remoteOfHeader, after?_cons_self]
  dsimp only
  have hdrop : (name ++ u :: rest).dropWhile isSpaceUnit = name ++ u :: rest := by
    obtain ⟨v, more, rfl⟩ := List.exists_cons_of_ne_nil hne
    exact List.dropWhile_cons_of_neg (by rw [(hunits v List.mem_cons_self).1]; exact nofun)
  rw [hdrop]
  cases hbehind : afterIgnoringCase? (unitsOf "remote") (name ++ u :: rest) with
  | none => rfl
  | some behind =>
    obtain ⟨more, hmore, rfl, hpre⟩ := afterIgnoringCase?_eq_some hlower hbehind
    dsimp only
    have hsplit : name.map lowerUnit = unitsOf "remote" ++ more.map lowerUnit := by
      obtain ⟨others, hothers⟩ := hpre
      rw [← hmore, List.map_drop, ← hothers, List.drop_left]
    cases more with
    | nil =>
      rcases hu with ⟨rfl, -⟩ | ⟨rfl, -, hsubsection⟩
      · rfl
      · cases subsection with
        | none => exact absurd rfl hsubsection
        | some subsection => exact absurd (hsplit.trans (List.append_nil _)) h.2.2.1
    | cons v more =>
      have hmem {w : UInt16} (hw : w ∈ v :: more) : w ∈ name := List.mem_of_mem_drop (hmore ▸ hw)
      rw [List.cons_append,
        quotedSubsection_cons_of_not_space (hunits v (hmem List.mem_cons_self)).1]
      dsimp only
      by_cases hv : v = 0x2e
      · subst hv
        rcases hu with ⟨rfl, rfl⟩ | ⟨rfl, hhead, -⟩
        · -- the legacy form of a remote
          refine absurd ?_ h.2.2
          rw [hsplit]
          exact ⟨more.map lowerUnit, List.append_assoc ..⟩
        · obtain ⟨after, rfl⟩ := List.head?_eq_some_iff.mp hhead
          have htake : (more ++ 0x20 :: 0x22 :: after).takeWhile
              (fun u ↦ u != 0x5d && !isSpaceUnit u) = more := by
            rw [List.takeWhile_append_of_pos]
            · exact List.append_nil more
            · intro w hw
              have hw := hunits w (hmem (List.mem_cons_of_mem _ hw))
              rw [hw.1, bne_iff_ne.mpr hw.2]
              rfl
          rw [dottedSubsection, after?_cons_self]
          dsimp only
          rw [htake, List.drop_left]
          split
          next found hfound =>
            split at hfound
            · cases hfound
            · cases hfound
              rfl
          next => rfl
      · rw [dottedSubsection_cons_of_ne hv]

/-! ## Reading the lines -/

theorem mem_logicalLines {lines : List ConfigLine} {line : ConfigLine × CodeUnits}
    (h : line ∈ logicalLines lines) :
    line.1 ∈ lines ∧ (line.1.continues = false → line.2 = []) := by
  induction lines generalizing line with
  | nil => cases h
  | cons first lines ih =>
    rw [logicalLines_cons] at h
    split at h
    next hcont =>
      have hfirst {more : CodeUnits} :
          first ∈ first :: lines ∧ (first.continues = false → more = []) :=
        ⟨List.mem_cons_self, fun hno ↦ by rw [hcont] at hno; cases hno⟩
      split at h
      next => exact List.mem_singleton.mp h ▸ hfirst
      next next' more others hlogical =>
        rcases List.mem_cons.mp h with rfl | h
        · exact hfirst
        · obtain ⟨hmem, hmore⟩ := ih (hlogical ▸ List.mem_cons_of_mem _ h)
          exact ⟨List.mem_cons_of_mem _ hmem, hmore⟩
    next =>
      rcases List.mem_cons.mp h with rfl | h
      · exact ⟨List.mem_cons_self, fun _ ↦ rfl⟩
      · exact ⟨List.mem_cons_of_mem _ (ih h).1, (ih h).2⟩

/-- A header is read by itself, as what its text names. -/
theorem readLine_bracketed {line : ConfigLine} {inside : CodeUnits}
    (h : line.text = 0x5b :: (inside ++ [0x5d])) (more : CodeUnits) (s : ConfigReading) :
    s.readLine toLowerCase (line.joined more) =
      { s with remote := remoteOfHeader toLowerCase line.text } := by
  have hcont : ¬line.continues = true := by
    rw [ConfigLine.continues, h, ← List.cons_append, List.getLast?_concat]
    decide
  rw [ConfigLine.joined, if_neg hcont, h, readLine_bracket]

/-- **The URLs that are kept** are the first of `origin` and the first of the other remotes. -/
theorem foldl_readLine {lines : List (ConfigLine × CodeUnits)}
    (h : ∀ line ∈ lines, line.1.IsWritten ∧ (line.1.continues = false → line.2 = []))
    (s : ConfigReading) :
    let read := (lines.map fun line ↦ line.1.joined line.2).foldl
      (ConfigReading.readLine toLowerCase) s
    read.originUrl = (s.originUrl <|>
        ((urlsRead s.remote lines).find? (·.1 = originName)).map (·.2)) ∧
      read.firstRemoteUrl = (s.firstRemoteUrl <|>
        ((urlsRead s.remote lines).find? (·.1 ≠ originName)).map (·.2)) := by
  induction lines generalizing s with
  | nil =>
    have hnone (url : Option CodeUnits) : (url <|> none) = url := by cases url <;> rfl
    exact ⟨(hnone _).symm, (hnone _).symm⟩
  | cons line lines ih =>
    obtain ⟨line, more⟩ := line
    obtain ⟨⟨hline, hmore⟩, hlines⟩ := List.forall_mem_cons.mp h
    have ih := ih hlines
    rw [List.map_cons, List.foldl_cons]
    cases line with
    | remoteHeader name =>
      have htext : (ConfigLine.remoteHeader name).text =
          0x5b :: ((unitsOf "remote" ++ 0x20 :: 0x22 :: (name ++ [0x22])) ++ [0x5d]) := by
        simp [ConfigLine.text]
      rw [readLine_bracketed toLowerCase htext, remoteOfHeader_remoteHeader toLowerCase
        fun u hu ↦ (hline u hu).1]
      exact ih _
    | header name subsection =>
      have htext : ∃ inside, (ConfigLine.header name subsection).text =
          0x5b :: (inside ++ [0x5d]) := by
        cases subsection with
        | none => exact ⟨name, rfl⟩
        | some subsection =>
          exact ⟨name ++ 0x20 :: 0x22 :: (escapeValue subsection ++ [0x22]), by
            simp [ConfigLine.text]⟩
      obtain ⟨inside, htext⟩ := htext
      rw [readLine_bracketed toLowerCase htext, remoteOfHeader_header toLowerCase hline]
      exact ih _
    | comment text =>
      rw [readLine_comment toLowerCase hline.2]
      exact ih s
    | setting key value =>
      rw [joined_setting, readLine_setting toLowerCase hline.1 hline.2.1,
        textRead_joinedValue hmore, urlsRead_setting]
      have hrest := ih s
      cases isUrlKey key with
      | false => exact hrest
      | true =>
        cases hremote : s.remote with
        | none =>
          rw [hremote] at hrest
          exact hrest
        | some name =>
          cases urlRead value more with
          | none =>
            rw [hremote] at hrest
            exact hrest
          | some url =>
            have hadd := ih (s.addUrl (name, url))
            have hsame : (s.addUrl (name, url)).remote = some name := by
              rw [ConfigReading.addUrl]
              split
              · exact hremote
              · exact hremote
            rw [hsame] at hadd
            dsimp only
            rw [List.find?_cons, List.find?_cons]
            refine ⟨hadd.1.trans ?_, hadd.2.trans ?_⟩
            · rw [ConfigReading.addUrl]
              by_cases horigin : name = originName
              · rw [if_pos horigin, decide_eq_true horigin]
                cases s.originUrl <;> rfl
              · rw [if_neg horigin, decide_eq_false horigin]
            · rw [ConfigReading.addUrl]
              by_cases horigin : name = originName
              · rw [if_pos horigin, decide_eq_false (not_not_intro horigin)]
              · rw [if_neg horigin, decide_eq_true horigin]
                cases s.firstRemoteUrl <;> rfl

/-- The first URL of `origin`, or else the first of another remote. -/
theorem primaryUrl_eq (urls : List (CodeUnits × CodeUnits)) : primaryUrl urls =
    ((urls.find? (·.1 = originName)).map (·.2) <|> (urls.find? (·.1 ≠ originName)).map (·.2)) := by
  rw [primaryUrl]
  cases horigin : urls.find? (·.1 = originName) with
  | some url => rfl
  | none =>
    cases urls with
    | nil => rfl
    | cons url urls =>
      have hne : url.1 ≠ originName := fun h ↦
        List.find?_eq_none.mp horigin url List.mem_cons_self (decide_eq_true h)
      rw [List.find?_cons, decide_eq_true hne]
      rfl

/-- **The result** is the first URL that is read of those of `origin`, or else of all. -/
theorem parseOriginUrlFromGitConfig_configText {lines : List (ConfigLine × Bool)}
    (h : ∀ line ∈ lines, line.1.IsWritten) :
    parseOriginUrlFromGitConfig toLowerCase (configText lines) =
      primaryUrl (urlsRead none (logicalLines (lines.map Prod.fst))) := by
  have hlogical : ∀ line ∈ logicalLines (lines.map Prod.fst),
      line.1.IsWritten ∧ (line.1.continues = false → line.2 = []) := by
    intro line hline
    obtain ⟨hmem, hmore⟩ := mem_logicalLines hline
    obtain ⟨written, hwritten, heq⟩ := List.mem_map.mp hmem
    exact ⟨heq ▸ h written hwritten, hmore⟩
  have hlast (s : ConfigReading) :
      (lastText (lines.map Prod.fst)).foldl (ConfigReading.readLine toLowerCase) s = s := by
    rw [lastText]
    split <;> rfl
  obtain ⟨horigin, hfirst⟩ := foldl_readLine toLowerCase hlogical {}
  rw [parseOriginUrlFromGitConfig, splitTextLines_joinContinuations h, List.foldl_append, hlast,
    primaryUrl_eq]
  exact congrArg₂ (fun origin first : Option CodeUnits ↦ (origin <|> first)) horigin hfirst

/-! ## The origin URL -/

/-- The origin URL is read back from the text of the configuration. -/
def RecoversOriginUrl (lines : List (ConfigLine × Bool)) : Prop :=
  parseOriginUrlFromGitConfig toLowerCase (configText lines) =
    originUrlOf (remotesOf (lines.map Prod.fst))

/-- **The origin URL is read back exactly if it is the one that is read off the logical lines.** -/
theorem recoversOriginUrl_iff {lines : List (ConfigLine × Bool)} (h : IsWrittenConfig lines) :
    RecoversOriginUrl toLowerCase lines ↔ ReadsOriginUrl (lines.map Prod.fst) := by
  rw [RecoversOriginUrl, ReadsOriginUrl,
    parseOriginUrlFromGitConfig_configText toLowerCase h.written]

/-- A remote whose URL ends in a backslash, before its fetch specification. -/
def backslashConfig : List (ConfigLine × Bool) :=
  [(.remoteHeader originName, false), (.setting (unitsOf "url") (unitsOf "a\\"), false),
    (.setting (unitsOf "fetch") (unitsOf "b"), false)]

theorem isWrittenConfig_backslashConfig : IsWrittenConfig backslashConfig where
  written := by
    refine List.forall_mem_cons.mpr ⟨?_, List.forall_mem_cons.mpr ⟨?_,
      List.forall_mem_singleton.mpr ?_⟩⟩
    · exact (by decide : ∀ u ∈ originName, u ≠ 0x22 ∧ u ≠ 0x5c ∧ isLineBreakUnit u = false)
    · exact ⟨by decide, by decide, by decide, fun _ ↦ by decide⟩
    · exact ⟨by decide, by decide, by decide, fun h ↦ absurd h (by decide)⟩
  nodup_names := by decide
  urls_ne_nil := by decide

/-- The condition fails, because the next line is read as a part of the URL. -/
theorem recoversOriginUrl_iff_backslashConfig :
    RecoversOriginUrl id backslashConfig ↔ ReadsOriginUrl (backslashConfig.map Prod.fst) :=
  recoversOriginUrl_iff id isWrittenConfig_backslashConfig

/-- **The origin URL is not read back**: `a\` becomes `afetch = b`. -/
theorem not_recoversOriginUrl_backslashConfig :
    IsWrittenConfig backslashConfig ∧ ¬RecoversOriginUrl id backslashConfig := by
  refine ⟨isWrittenConfig_backslashConfig, fun h ↦ ?_⟩
  rw [RecoversOriginUrl] at h
  revert h
  decide

end Awen.Vcs
