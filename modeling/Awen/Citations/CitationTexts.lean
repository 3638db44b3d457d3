import Awen.Citations.CitationHrefs

/-!
# Citations in texts

A text that is made up of fragments and the links of citations, one after the other, is read as
such: the links are found where they are, and what is written in their places leaves the fragments
as they were. A search finds nothing across the border of a fragment and a link, because every link
begins with a bracket and a blank that no address contains (`isJoint_matchCitationLink`).
-/

namespace Awen.Citations

open Composer (after? isHrefUnit isSpaceUnit)

/-! ## What a link is -/

theorem after?_eq_some {start s rest : CodeUnits} :
    after? start s = some rest ↔ s = start ++ rest := by
  rw [after?]
  split
  next hstart =>
    obtain ⟨t, rfl⟩ := List.isPrefixOf_iff_prefix.mp hstart
    rw [List.drop_left, Option.some.injEq, List.append_cancel_left_eq]
  next hstart =>
    refine iff_of_false (Option.some_ne_none rest).symm fun heq ↦ hstart ?_
    exact List.isPrefixOf_iff_prefix.mpr ⟨rest, heq.symm⟩

/-- `[Assistant quote](awen-citation://v1/` -/
def citationLinkPrefix : CodeUnits := citationLinkStart ++ citationHrefPrefix

/-- **A text begins with a link exactly if it begins with its source**, and the address is one that
the expression takes. -/
theorem matchCitationLink_eq_some {text href : CodeUnits} :
    matchCitationLink text = some href ↔ ∃ address rest,
      href = citationHrefPrefix ++ address ∧ text = citationLinkPrefix ++ address ++ 0x29 :: rest ∧
        (∀ u ∈ address, isHrefUnit u = true) ∧ 1 ≤ address.length ∧
          address.length ≤ maxCitationHrefLength - citationHrefPrefix.length := by
  have hclosing : isHrefUnit 0x29 = false := by decide
  constructor
  · intro h
    simp only [matchCitationLink, Option.bind_eq_bind, Option.bind_eq_some_iff,
      after?_eq_some] at h
    obtain ⟨labelled, hlabelled, body, hbody, rest, hrest, h⟩ := h
    split at h
    next hlength =>
      refine ⟨body.takeWhile isHrefUnit, rest, (Option.some.inj h).symm, ?_,
        fun u hu ↦ List.mem_takeWhile_imp hu, hlength⟩
      have hcut : body.takeWhile isHrefUnit ++ 0x29 :: rest = body := by
        have happend := List.prefix_iff_eq_append.mp (List.takeWhile_prefix (l := body) isHrefUnit)
        rwa [hrest] at happend
      rw [hlabelled, hbody, citationLinkPrefix, List.append_assoc, List.append_assoc, hcut]
    next => nomatch h
  · rintro ⟨address, rest, rfl, rfl, hunits, hlength⟩
    have htake : (address ++ 0x29 :: rest).takeWhile isHrefUnit = address := by
      rw [List.takeWhile_append_of_pos hunits, List.takeWhile_cons, hclosing]
      exact List.append_nil address
    have hlast : after? [0x29] (0x29 :: rest) = some rest := after?_eq_some.mpr rfl
    have hstart : after? citationLinkStart (citationLinkPrefix ++ address ++ 0x29 :: rest) =
        some (citationHrefPrefix ++ (address ++ 0x29 :: rest)) := by
      rw [after?_eq_some, citationLinkPrefix, List.append_assoc, List.append_assoc]
    simp only [matchCitationLink, hstart, Option.bind_eq_bind, Option.bind_some,
      after?_eq_some.mpr (rfl : citationHrefPrefix ++ (address ++ 0x29 :: rest) = _), htake,
      List.drop_left, hlast]
    exact if_pos hlength

theorem recognisesSources : RecognisesSources matchCitationLink citationLinkSource where
  prefix_of h := by
    obtain ⟨address, rest, rfl, rfl, -, -, -⟩ := matchCitationLink_eq_some.mp h
    refine ⟨rest, ?_⟩
    simp only [citationLinkSource, citationLinkPrefix, List.append_assoc]
    rfl
  ne_nil href := List.append_ne_nil_of_right_ne_nil _ (List.cons_ne_nil _ _)

/-! ## Borders -/

/-- What a link of a citation, or the end of the text, begins with. -/
def BeginsLink (text : CodeUnits) : Prop := text = [] ∨ citationLinkStart <+: text

/-- What the start of a link leaves of an address that would reach into it is followed by a blank,
not by what closes a link. -/
private theorem address_ne_linkStart {address rest tail : CodeUnits}
    (hunits : ∀ u ∈ address, isHrefUnit u = true) :
    0x5b :: (address ++ 0x29 :: rest) ≠ citationLinkStart ++ tail := by
  intro heq
  have hstart : citationLinkStart =
      0x5b :: (unitsOf "Assistant" ++ 0x20 :: unitsOf "quote](") := by decide
  rw [hstart, List.cons_append, List.cons.injEq, List.append_assoc] at heq
  have hdrop := congrArg (List.dropWhile isHrefUnit) heq.2
  have hclosing : isHrefUnit 0x29 = false := by decide
  have hblank : isHrefUnit 0x20 = false := by decide
  rw [List.dropWhile_append_of_pos hunits, List.dropWhile_append_of_pos (by decide),
    List.cons_append, List.dropWhile_cons, List.dropWhile_cons, hclosing, hblank] at hdrop
  exact absurd (List.cons.inj hdrop).1 (by decide)

/-- A link that begins in front of the start of another one ends there. -/
private theorem link_before_linkStart {a : UInt16} {s address rest tail : CodeUnits}
    (hunits : ∀ u ∈ address, isHrefUnit u = true)
    (htext : a :: s ++ (citationLinkStart ++ tail) =
      citationLinkPrefix ++ address ++ 0x29 :: rest) :
    ∃ between, a :: s = citationLinkPrefix ++ address ++ 0x29 :: between := by
  have hclosed : citationLinkPrefix ++ address ++ 0x29 :: rest =
      (citationLinkPrefix ++ (address ++ [0x29])) ++ rest := by
    simp only [List.append_assoc, List.singleton_append]
  have hstart : citationLinkStart = 0x5b :: unitsOf "Assistant quote](" := by decide
  rw [hclosed] at htext
  rcases List.append_eq_append_iff.mp htext with ⟨beyond, hlink, hover⟩ | ⟨between, hs, -⟩
  · rcases beyond with _ | ⟨u, beyond⟩
    · rw [List.append_nil] at hlink
      exact ⟨[], by rw [← hlink, List.append_assoc]⟩
    · -- the rest of the link begins with the bracket of the next one
      have hu : u = 0x5b := by
        rw [hstart] at hover
        exact (List.cons.inj hover).1.symm
      subst hu
      have haddress : ∃ front, address ++ [0x29] = front ++ 0x5b :: beyond := by
        rcases List.append_eq_append_iff.mp hlink with ⟨front, -, haddress⟩ | ⟨front, hp, hfront⟩
        · exact ⟨front, haddress⟩
        · rcases front with _ | ⟨v, front⟩
          · exact ⟨[], hfront.symm⟩
          · -- there is no other bracket in what every link begins with
            have htail : (0x5b : UInt16) ∉ citationLinkPrefix.tail := by decide
            rw [hp] at htail
            refine absurd ?_ htail
            rw [← (List.cons.inj hfront).1]
            exact List.mem_append_right s List.mem_cons_self
      obtain ⟨front, haddress⟩ := haddress
      rcases List.eq_nil_or_concat' beyond with rfl | ⟨inner, last, rfl⟩
      · exact absurd (List.append_inj' haddress rfl).2 (by decide)
      · rw [← List.cons_append, ← List.append_assoc] at haddress
        obtain ⟨rfl, hlast⟩ := List.append_inj' haddress rfl
        obtain rfl := (List.cons.inj hlast).1
        refine absurd ?_ (@address_ne_linkStart _ rest tail
          fun u (hu : u ∈ inner) ↦ hunits u (List.mem_append_right _ (List.mem_cons_of_mem _ hu)))
        rw [hover]
        simp only [List.cons_append, List.append_assoc, List.nil_append]
  · exact ⟨between, by rw [hs]; simp only [List.append_assoc, List.singleton_append]⟩

/-- **No link reaches across the beginning of another.** -/
theorem isJoint_matchCitationLink {after : CodeUnits} (h : BeginsLink after) :
    IsJoint matchCitationLink after := by
  intro a s
  refine Option.ext fun href ↦ ?_
  rw [matchCitationLink_eq_some, matchCitationLink_eq_some]
  constructor
  · rintro ⟨address, rest, rfl, htext, hunits, hlength⟩
    refine ⟨address, ?_⟩
    rcases h with rfl | ⟨tail, rfl⟩
    · exact ⟨rest, rfl, by rwa [List.append_nil] at htext, hunits, hlength⟩
    · obtain ⟨between, hbetween⟩ := link_before_linkStart hunits htext
      exact ⟨between, rfl, hbetween, hunits, hlength⟩
  · rintro ⟨address, rest, rfl, htext, hunits, hlength⟩
    refine ⟨address, rest ++ after, rfl, ?_, hunits, hlength⟩
    rw [htext, List.append_assoc, List.append_assoc, List.append_assoc]
    rfl

/-! ## The link of a citation -/

variable {citation : AssistantCitation}

/-- The address behind its start. -/
def citationAddress (citation : AssistantCitation) : List ℕ :=
  citationPath citation ++ 0x3f :: formText (citationParams citation)

theorem citationHref_eq (citation : AssistantCitation) :
    citationHref citation = citationHrefPrefix ++ asciiUnits (citationAddress citation) := by
  rw [citationHref, intercalate_citationSegments, citationAddress, asciiUnits_append,
    List.append_assoc]
  rfl

/-- **The address of a citation holds no blank and no parenthesis.** -/
theorem isHrefUnit_citationAddress (h : citation.WellFormed) :
    ∀ u ∈ asciiUnits (citationAddress citation), isHrefUnit u = true := by
  have hplain : ∀ c, 0x20 < c → c < 128 → c ≠ 0x29 → isHrefUnit (UInt16.ofNat c) = true := by
    intro c hlow hhigh hne
    have hnat := toNat_asciiUnit hhigh
    simp only [isHrefUnit, isSpaceUnit, Bool.and_eq_true, Bool.not_eq_true', Bool.or_eq_false_iff,
      bne_iff_ne, beq_eq_false_iff_ne, decide_eq_false_iff_not, UInt16.le_iff_toNat_le,
      ← UInt16.toNat_inj, ne_eq, hnat]
    simp
    omega
  intro u hu
  obtain ⟨c, hc, rfl⟩ := List.mem_map.mp hu
  rcases List.mem_append.mp hc with hc | hc
  · rcases isPathByte_citationPath h hc with hpart | rfl | rfl
    · have := isPathPartByte_iff.mp hpart
      exact hplain c (by omega) (by omega) (by omega)
    · decide
    · decide
  · rcases List.mem_cons.mp hc with rfl | hc
    · decide
    · rcases isQueryByte_formText (wellFormed_citationParams h) hc with hform | hsign
      · have := isFormByte_iff.mp hform
        exact hplain c (by omega) (by omega) (by omega)
      · exact hplain c (by omega) (by omega) (by omega)

/-- **The link of a citation is found.** -/
theorem matchCitationLink_source (h : citation.WellFormed) (haccepted : citation.Accepted)
    (after : CodeUnits) :
    matchCitationLink (citationLinkSource (citationHref citation) ++ after) =
      some (citationHref citation) := by
  have hlength := length_citationHref_le h haccepted
  rw [citationHref_eq, List.length_append] at hlength
  refine matchCitationLink_eq_some.mpr ⟨_, after, citationHref_eq citation, ?_,
    isHrefUnit_citationAddress h, ?_, Nat.le_sub_of_add_le' hlength⟩
  · rw [citationLinkSource, citationHref_eq, citationLinkPrefix]
    simp only [List.append_assoc]
    rfl
  · rw [length_asciiUnits, citationAddress, List.length_append, List.length_cons]
    omega

/-! ## Fragments and citations -/

/-- The link of a citation, which is written for every citation without lone surrogates. -/
def citationSource (citation : AssistantCitation) : CodeUnits :=
  (serializeAssistantCitation citation).getD []

/-- A text of fragments, each with a citation behind it, and a last fragment. -/
def textOf (pieces : List (CodeUnits × AssistantCitation)) (last : CodeUnits) : CodeUnits :=
  (pieces.flatMap fun piece ↦ piece.1 ++ citationSource piece.2) ++ last

/-- The citations of such a text, at their places. -/
def placedCitations (index : ℕ) : List (CodeUnits × AssistantCitation) → List CitationOccurrence
  | [] => []
  | (fragment, citation) :: pieces =>
    let start := index + fragment.length
    let stop := start + (citationSource citation).length
    { citation, source := citationSource citation, start, stop } :: placedCitations stop pieces

theorem serializeAssistantCitation_eq (h : citation.WellFormed) :
    serializeAssistantCitation citation = some (citationSource citation) := by
  rw [citationSource, serializeAssistantCitation, formatAssistantCitationHref_eq h]
  rfl

theorem citationSource_eq (h : citation.WellFormed) :
    citationSource citation = citationLinkSource (citationHref citation) := by
  rw [citationSource, serializeAssistantCitation, formatAssistantCitationHref_eq h]
  rfl

section

variable (newUrl : CodeUnits → Option Url)

/-- What a match of the expression is collected as. -/
def occurrenceOf (found : ℕ × CodeUnits) : Option CitationOccurrence :=
  (parseAssistantCitationHref newUrl found.2).map fun citation ↦
    { citation
      source := citationLinkSource found.2
      start := found.1
      stop := found.1 + (citationLinkSource found.2).length }

/-- What is written in the place of a match in titles and previews. -/
def plainLink (href : CodeUnits) : CodeUnits :=
  match parseAssistantCitationHref newUrl href with
  | none => citationLinkSource href
  | some citation => plainCitation citation

variable {newUrl}

/-- The matches in a fragment without citations are the addresses of none. -/
theorem parse_eq_none_of_collect {fragment : CodeUnits}
    (h : collectAssistantCitations newUrl fragment = []) (index : ℕ) :
    ∀ found ∈ matchesFrom matchCitationLink citationLinkSource index 0 fragment,
      parseAssistantCitationHref newUrl found.2 = none := by
  intro found hfound
  have hadd := @RecognisesSources.matchesFrom_add _ _ matchCitationLink citationLinkSource
    fragment 0 0 index
  rw [Nat.zero_add] at hadd
  rw [hadd] at hfound
  obtain ⟨first, hfirst, rfl⟩ := List.mem_map.mp hfound
  exact Option.map_eq_none_iff.mp (List.filterMap_eq_nil_iff.mp h first hfirst)

theorem beginsLink_textOf {pieces : List (CodeUnits × AssistantCitation)}
    (h : citation.WellFormed) (last : CodeUnits) :
    BeginsLink (citationSource citation ++ textOf pieces last) := by
  rw [citationSource_eq h, citationLinkSource, List.append_assoc, List.append_assoc]
  exact .inr (List.prefix_append _ _)

theorem textOf_cons (fragment : CodeUnits) (citation : AssistantCitation)
    (pieces : List (CodeUnits × AssistantCitation)) (last : CodeUnits) :
    textOf ((fragment, citation) :: pieces) last =
      fragment ++ (citationSource citation ++ textOf pieces last) := by
  rw [textOf, textOf, List.flatMap_cons, List.append_assoc, List.append_assoc]

variable {pieces : List (CodeUnits × AssistantCitation)} {last : CodeUnits}

/-- **The citations of a text are found where they are**, if each comes back from its address. -/
theorem filterMap_matchesFrom_textOf
    (hpieces : ∀ piece ∈ pieces, piece.2.WellFormed ∧ piece.2.Accepted ∧
      collectAssistantCitations newUrl piece.1 = [] ∧
      parseAssistantCitationHref newUrl (citationHref piece.2) = some piece.2)
    (hlast : collectAssistantCitations newUrl last = []) (index : ℕ) :
    (matchesFrom matchCitationLink citationLinkSource index 0 (textOf pieces last)).filterMap
      (occurrenceOf newUrl) = placedCitations index pieces := by
  have hnone : ∀ fragment, collectAssistantCitations newUrl fragment = [] → ∀ index,
      (matchesFrom matchCitationLink citationLinkSource index 0 fragment).filterMap
        (occurrenceOf newUrl) = [] := fun fragment hfragment index ↦
    List.filterMap_eq_nil_iff.mpr fun found hfound ↦
      Option.map_eq_none_iff.mpr (parse_eq_none_of_collect hfragment index found hfound)
  induction pieces generalizing index with
  | nil => exact hnone last hlast index
  | cons piece pieces ih =>
    obtain ⟨fragment, citation⟩ := piece
    obtain ⟨hwell, haccepted, hfragment, hparse⟩ := hpieces _ List.mem_cons_self
    have hsource := citationSource_eq hwell
    have hrest := ih (fun piece hpiece ↦ hpieces piece (List.mem_cons_of_mem _ hpiece))
      (index + fragment.length + (citationSource citation).length)
    rw [textOf_cons, recognisesSources.matchesFrom_append
      (isJoint_matchCitationLink (beginsLink_textOf hwell last)) fragment index 0 (Nat.zero_le _),
      List.filterMap_append, hnone fragment hfragment, List.nil_append, hsource,
      recognisesSources.matchesFrom_source (matchCitationLink_source hwell haccepted _), ← hsource,
      List.filterMap_cons_some
        (b := ⟨citation, citationSource citation, index + fragment.length,
          index + fragment.length + (citationSource citation).length⟩), hrest]
    · rfl
    · rw [occurrenceOf, hparse, hsource]
      rfl

/-- **What is written in the places of the citations leaves the fragments as they were.** -/
theorem substituteFrom_textOf
    (hpieces : ∀ piece ∈ pieces, piece.2.WellFormed ∧ piece.2.Accepted ∧
      collectAssistantCitations newUrl piece.1 = [] ∧
      parseAssistantCitationHref newUrl (citationHref piece.2) = some piece.2)
    (hlast : collectAssistantCitations newUrl last = []) :
    substituteFrom matchCitationLink citationLinkSource (plainLink newUrl) 0 (textOf pieces last) =
      (pieces.flatMap fun piece ↦ piece.1 ++ plainCitation piece.2) ++ last := by
  have hsame : ∀ fragment, collectAssistantCitations newUrl fragment = [] →
      substituteFrom matchCitationLink citationLinkSource (plainLink newUrl) 0 fragment =
        fragment := fun fragment hfragment ↦
    recognisesSources.substituteFrom_eq_self fragment 0 0 (Nat.zero_le _) fun found hfound ↦ by
      rw [plainLink, parse_eq_none_of_collect hfragment 0 found hfound]
  induction pieces with
  | nil => exact hsame last hlast
  | cons piece pieces ih =>
    obtain ⟨fragment, citation⟩ := piece
    obtain ⟨hwell, haccepted, hfragment, hparse⟩ := hpieces _ List.mem_cons_self
    rw [textOf_cons, recognisesSources.substituteFrom_append
      (isJoint_matchCitationLink (beginsLink_textOf hwell last)) _ fragment 0 (Nat.zero_le _),
      hsame fragment hfragment, citationSource_eq hwell,
      recognisesSources.substituteFrom_source (matchCitationLink_source hwell haccepted _),
      ih fun piece hpiece ↦ hpieces piece (List.mem_cons_of_mem _ hpiece), plainLink, hparse,
      List.flatMap_cons, List.append_assoc, List.append_assoc]

/-! ## The block for the provider -/

/-- The unit is no `<`, `>` or `&`. -/
def IsPlainUnit (u : UInt16) : Prop := u ≠ 0x3c ∧ u ≠ 0x3e ∧ u ≠ 0x26

instance (u : UInt16) : Decidable (IsPlainUnit u) := inferInstanceAs (Decidable (_ ∧ _))

theorem mem_replaceUnit {u v : UInt16} {replacement value : CodeUnits}
    (h : v ∈ Composer.replaceUnit u replacement value) :
    v ∈ replacement ∨ v ∈ value ∧ v ≠ u := by
  obtain ⟨w, hw, hv⟩ := List.mem_flatMap.mp h
  split at hv
  next => exact .inl hv
  next hne =>
    obtain rfl := List.mem_singleton.mp hv
    exact .inr ⟨hw, hne⟩

/-- **No data can open or close a tag.** -/
theorem isPlainUnit_escapeMarkup {data : CodeUnits} {u : UInt16} (h : u ∈ escapeMarkup data) :
    IsPlainUnit u := by
  have hreplacements : ∀ u ∈ unitsOf "\\u003c" ++ unitsOf "\\u003e" ++ unitsOf "\\u0026",
      IsPlainUnit u := by decide
  rcases mem_replaceUnit h with h | ⟨h, hamp⟩
  · exact hreplacements u (List.mem_append_right _ h)
  · rcases mem_replaceUnit h with h | ⟨h, hgt⟩
    · exact hreplacements u (List.mem_append_left _ (List.mem_append_right _ h))
    · rcases mem_replaceUnit h with h | ⟨-, hlt⟩
      · exact hreplacements u (List.mem_append_left _ (List.mem_append_left _ h))
      · exact ⟨hlt, hgt, hamp⟩

/-- A written text is read from its characters. -/
private theorem isPlainUnit_of_ofList {text : List Char} {u : UInt16}
    (h : (text.flatMap fun c ↦ utf16 c.toNat).all (fun u ↦ decide (IsPlainUnit u)) = true)
    (hu : u ∈ unitsOf (String.ofList text)) : IsPlainUnit u := by
  rw [unitsOf, String.toList_ofList] at hu
  exact of_decide_eq_true (List.all_eq_true.mp h u hu)

theorem isPlainUnit_describeCitations {citations : List (CodeUnits × AssistantCitation)}
    {u : UInt16} (h : u ∈ describeCitations citations) : IsPlainUnit u := by
  rw [describeCitations] at h
  split at h
  next =>
    rw [List.mem_append, List.mem_append, List.mem_append] at h
    obtain ((h | h) | h) | h := h
    all_goals exact isPlainUnit_of_ofList (by decide +kernel) h
  next =>
    rw [List.mem_append, List.mem_append] at h
    obtain (h | h) | h := h
    all_goals exact isPlainUnit_of_ofList (by decide +kernel) h

/-- What is sent for a prompt: the prompt itself if it cites nothing, and else its text and a block
in which only the two tags have signs of markup. -/
def BlockIsClosed (newUrl : CodeUnits → Option Url)
    (stringify : List (CodeUnits × AssistantCitation) → CodeUnits) (prompt : CodeUnits) : Prop :=
  collectAssistantCitations newUrl prompt = [] ∧
      expandAssistantCitationsForProvider newUrl stringify prompt = prompt ∨
    ∃ text description data,
      expandAssistantCitationsForProvider newUrl stringify prompt =
        text ++ unitsOf "\n\n<assistant_citations>\n" ++ description ++ unitsOf "\n" ++ data ++
          unitsOf "\n</assistant_citations>" ∧
      (∀ u ∈ description, IsPlainUnit u) ∧ ∀ u ∈ data, IsPlainUnit u

/-- **The block of every prompt is closed by its own tag.** -/
theorem blockIsClosed (newUrl : CodeUnits → Option Url)
    (stringify : List (CodeUnits × AssistantCitation) → CodeUnits) (prompt : CodeUnits) :
    BlockIsClosed newUrl stringify prompt := by
  rw [BlockIsClosed, expandAssistantCitationsForProvider]
  dsimp only
  split
  next hnone => exact .inl ⟨List.eq_nil_of_length_eq_zero hnone, rfl⟩
  next =>
    exact .inr ⟨_, _, _, rfl, fun u ↦ isPlainUnit_describeCitations, fun u ↦
      isPlainUnit_escapeMarkup⟩

/-! ## Citations survive -/

/-- Citations and the text that holds their links are read as they were written: each citation comes
back from its address, the citations are found at the places of their links, what is written in
these places leaves the fragments as they are, and no quote can close the block for a provider. -/
structure CitationsSurvive (newUrl : CodeUnits → Option Url)
    (stringify : List (CodeUnits × AssistantCitation) → CodeUnits)
    (pieces : List (CodeUnits × AssistantCitation)) (last : CodeUnits) : Prop where
  roundTrip : ∀ piece ∈ pieces, ∃ href, formatAssistantCitationHref piece.2 = some href ∧
    parseAssistantCitationHref newUrl href = some piece.2
  serialized : ∀ piece ∈ pieces,
    serializeAssistantCitation piece.2 = some (citationSource piece.2)
  collected : collectAssistantCitations newUrl (textOf pieces last) = placedCitations 0 pieces
  plain : assistantCitationsToPlainText newUrl (textOf pieces last) =
    (pieces.flatMap fun piece ↦ piece.1 ++ plainCitation piece.2) ++ last
  block : BlockIsClosed newUrl stringify (textOf pieces last)

/-- **Citations survive in a text exactly if their ids are plain.** -/
theorem citationsSurvive_iff {newUrl : CodeUnits → Option Url} (hurl : ReadsCitationUrls newUrl)
    (stringify : List (CodeUnits × AssistantCitation) → CodeUnits)
    {pieces : List (CodeUnits × AssistantCitation)} {last : CodeUnits}
    (haccepts : ∀ piece ∈ pieces, piece.2.accepts = true)
    (hwell : ∀ piece ∈ pieces, piece.2.WellFormed)
    (hfragments : ∀ piece ∈ pieces, collectAssistantCitations newUrl piece.1 = [])
    (hlast : collectAssistantCitations newUrl last = []) :
    CitationsSurvive newUrl stringify pieces last ↔ ∀ piece ∈ pieces, piece.2.HasPlainIds := by
  constructor
  · intro hsurvive piece hpiece
    obtain ⟨href, hformat, hparse⟩ := hsurvive.roundTrip piece hpiece
    rw [formatAssistantCitationHref_eq (hwell piece hpiece)] at hformat
    obtain rfl := Option.some.inj hformat
    exact (parse_format_iff hurl (hwell piece hpiece) (haccepts piece hpiece)).mp hparse
  · intro hplain
    have hparse : ∀ piece ∈ pieces,
        parseAssistantCitationHref newUrl (citationHref piece.2) = some piece.2 :=
      fun piece hpiece ↦
        (parse_format_iff hurl (hwell piece hpiece) (haccepts piece hpiece)).mpr
          (hplain piece hpiece)
    have hpieces : ∀ piece ∈ pieces, piece.2.WellFormed ∧ piece.2.Accepted ∧
        collectAssistantCitations newUrl piece.1 = [] ∧
        parseAssistantCitationHref newUrl (citationHref piece.2) = some piece.2 :=
      fun piece hpiece ↦ ⟨hwell piece hpiece,
        AssistantCitation.accepted_of_accepts (haccepts piece hpiece), hfragments piece hpiece,
        hparse piece hpiece⟩
    refine ⟨fun piece hpiece ↦ ?_, fun piece hpiece ↦ ?_, ?_, ?_, ?_⟩
    · exact ⟨_, formatAssistantCitationHref_eq (hwell piece hpiece), hparse piece hpiece⟩
    · exact serializeAssistantCitation_eq (hwell piece hpiece)
    · exact filterMap_matchesFrom_textOf hpieces hlast 0
    · exact substituteFrom_textOf hpieces hlast
    · exact blockIsClosed newUrl stringify (textOf pieces last)

end

/-- The part of a platform that reads the addresses of citations. -/
def plainUrl (href : CodeUnits) : Option Url :=
  (after? citationHrefPrefix href).map fun rest ↦
    let path := rest.takeWhile (· ≠ 0x3f)
    { protocol := citationProtocol
      hostname := unitsOf "v1"
      username := []
      password := []
      port := []
      hash := []
      pathname := 0x2f :: [0x2f].intercalate (resolveSegments [] (path.splitOn 0x2f))
      searchParams := parseForm (rest.drop (path.length + 1)) }

theorem readsCitationUrls_plainUrl : ReadsCitationUrls plainUrl where
  read path query hpath _ := by
    have htake : (asciiUnits path ++ 0x3f :: asciiUnits query).takeWhile (· ≠ 0x3f) =
        asciiUnits path := by
      rw [List.takeWhile_append_of_pos fun u hu ↦ decide_eq_true ?_, List.takeWhile_cons,
        if_neg (by decide), List.append_nil]
      obtain ⟨c, hc, rfl⟩ := List.mem_map.mp hu
      rcases hpath c hc with hpart | rfl | rfl
      · have hbounds := isPathPartByte_iff.mp hpart
        have hnat := toNat_asciiUnit (show c < 128 by omega)
        intro heq
        rw [heq] at hnat
        have hvalue : (0x3f : UInt16).toNat = 0x3f := rfl
        omega
      · decide
      · decide
    have hdrop : (asciiUnits path ++ 0x3f :: asciiUnits query).drop
        ((asciiUnits path).length + 1) = asciiUnits query := by
      rw [← List.drop_drop, List.drop_left]
      rfl
    rw [plainUrl, List.append_assoc, after?_eq_some.mpr rfl, Option.map_some]
    simp only [htake, hdrop]

/-- A quote of two words, in a thread of the given name. -/
def sampleCitation (threadId : String) : AssistantCitation where
  environmentId := unitsOf "local"
  threadId := unitsOf threadId
  messageId := unitsOf "message 1"
  text := unitsOf "Looks good."
  comment := some (unitsOf "Why?")
  start := 0
  stop := 11
  prefixText := []
  suffixText := []

theorem citationsSurvive_iff_sample :
    CitationsSurvive plainUrl (fun _ ↦ []) [(unitsOf "See ", sampleCitation "thread")] [] ↔
      ∀ piece ∈ [(unitsOf "See ", sampleCitation "thread")], piece.2.HasPlainIds :=
  citationsSurvive_iff readsCitationUrls_plainUrl (fun _ ↦ []) (by decide)
    (List.forall_mem_singleton.mpr ⟨by decide, by decide, by decide, by decide, by decide,
      by decide, by decide⟩) (by decide) (by decide)

/-- **A citation of a thread that is called like a segment of a path is lost.** -/
theorem not_roundTrip_dots :
    (sampleCitation "..").accepts = true ∧ (sampleCitation "..").WellFormed ∧
      ∀ newUrl, ReadsCitationUrls newUrl →
        ¬∃ href, formatAssistantCitationHref (sampleCitation "..") = some href ∧
          parseAssistantCitationHref newUrl href = some (sampleCitation "..") := by
  have hwell : (sampleCitation "..").WellFormed :=
    ⟨by decide, by decide, by decide, by decide, by decide, by decide, by decide⟩
  refine ⟨by decide, hwell, fun newUrl hurl ⟨href, hformat, hparse⟩ ↦ ?_⟩
  rw [formatAssistantCitationHref_eq hwell] at hformat
  obtain rfl := Option.some.inj hformat
  exact absurd ((parse_format_iff hurl hwell (by decide)).mp hparse) (by decide)

end Awen.Citations
