import Awen.Library.OrderedMap
import Awen.Library.Unicode
import Mathlib.Data.List.DropRight

/-!
# Context references and what the provider reads of them

The text of a message refers to captured context by links, `[label](awen-context://v1/kind/id)`, and
its records carry what was captured. `projectComposerContextForProvider` writes a marker in place of
each link and appends an envelope with one entry for each record that is referred to. Strings are
lists of UTF-16 code units, as the regular expressions and the slices of the source read them.
-/

namespace Awen.Composer

/-! ## Code units -/

/-- `\s`, and what `trim` takes off. -/
def isSpaceUnit (u : UInt16) : Bool :=
  decide (0x9 ≤ u ∧ u ≤ 0xd) || u == 0x20 || u == 0xa0 || u == 0x1680 ||
    decide (0x2000 ≤ u ∧ u ≤ 0x200a) || u == 0x2028 || u == 0x2029 || u == 0x202f || u == 0x205f ||
    u == 0x3000 || u == 0xfeff

def isLowerUnit (u : UInt16) : Bool := decide (0x61 ≤ u ∧ u ≤ 0x7a)

def isUpperUnit (u : UInt16) : Bool := decide (0x41 ≤ u ∧ u ≤ 0x5a)

def isDigitUnit (u : UInt16) : Bool := decide (0x30 ≤ u ∧ u ≤ 0x39)

/-- `\w`: what has a word boundary against everything else. -/
def isWordUnit (u : UInt16) : Bool := isLowerUnit u || isUpperUnit u || isDigitUnit u || u == 0x5f

def lowerUnit (u : UInt16) : UInt16 := if isUpperUnit u then u + 0x20 else u

def upperUnit (u : UInt16) : UInt16 := if isLowerUnit u then u - 0x20 else u

def trimEnd (s : CodeUnits) : CodeUnits := s.rdropWhile isSpaceUnit

def trim (s : CodeUnits) : CodeUnits := trimEnd (s.dropWhile isSpaceUnit)

/-- `replace(/\s+/g, " ")`. `inside` says that the unit before was white space. -/
def collapseSpaces (inside : Bool) : CodeUnits → CodeUnits
  | [] => []
  | u :: s =>
    if isSpaceUnit u then
      if inside then collapseSpaces true s else 0x20 :: collapseSpaces true s
    else u :: collapseSpaces false s

/-- `text.replace(/[…]/g, " ")` -/
def blankOut (p : UInt16 → Bool) (s : CodeUnits) : CodeUnits :=
  s.map fun u ↦ if p u then 0x20 else u

/-- `text.split("\n")` -/
def splitLines (s : CodeUnits) : List CodeUnits := s.splitOn 0xa

/-- `lines.join("\n")` -/
def joinLines (lines : List CodeUnits) : CodeUnits := [0xa].intercalate lines

/-- A number in a template string. -/
def decimal (n : ℕ) : CodeUnits := unitsOf (toString n)

/-! ## Trimming -/

theorem head_trim {s : CodeUnits} {u : UInt16} (h : (trim s).head? = some u) :
    isSpaceUnit u = false := by
  obtain ⟨rest, hrest⟩ := List.head?_eq_some_iff.mp h
  have hhead : (s.dropWhile isSpaceUnit).head? = some u := by
    obtain ⟨after, hafter⟩ := List.rdropWhile_prefix isSpaceUnit (l := s.dropWhile isSpaceUnit)
    rw [← hafter, ← trimEnd, ← trim, hrest]
    rfl
  have hnot := List.head?_dropWhile_not isSpaceUnit s
  rwa [hhead] at hnot

theorem getLast_trimEnd {s : CodeUnits} {u : UInt16} (h : (trimEnd s).getLast? = some u) :
    isSpaceUnit u = false := by
  obtain ⟨hne, rfl⟩ := List.mem_getLast?_eq_getLast h
  exact Bool.not_eq_true _ ▸ List.rdropWhile_last_not isSpaceUnit s hne

theorem trim_eq_self_iff {s : CodeUnits} : trim s = s ↔
    (∀ u, s.head? = some u → isSpaceUnit u = false) ∧
      ∀ u, s.getLast? = some u → isSpaceUnit u = false := by
  constructor
  · intro h
    rw [← h]
    exact ⟨fun u ↦ head_trim, fun u ↦ getLast_trimEnd⟩
  · rintro ⟨hhead, hlast⟩
    have hdrop : s.dropWhile isSpaceUnit = s := by
      cases s with
      | nil => rfl
      | cons u s => exact List.dropWhile_cons_of_neg (by rw [hhead u rfl]; exact nofun)
    rw [trim, hdrop, trimEnd, List.rdropWhile_eq_self_iff]
    intro hne
    rw [hlast _ (List.getLast?_eq_some_getLast hne)]
    exact nofun

@[simp] theorem trim_trim (s : CodeUnits) : trim (trim s) = trim s :=
  trim_eq_self_iff.mpr ⟨fun _ ↦ head_trim, fun _ ↦ getLast_trimEnd⟩

/-- Trimming takes white space off both ends. -/
theorem exists_trim (s : CodeUnits) : ∃ before after, s = before ++ trim s ++ after ∧
    (∀ u ∈ before, isSpaceUnit u = true) ∧ ∀ u ∈ after, isSpaceUnit u = true := by
  refine ⟨s.takeWhile isSpaceUnit, (s.dropWhile isSpaceUnit).rtakeWhile isSpaceUnit, ?_,
    fun u hu ↦ List.mem_takeWhile_imp hu, fun u hu ↦ List.mem_rtakeWhile_imp hu⟩
  rw [List.append_assoc, trim, trimEnd, List.rdropWhile_append_rtakeWhile,
    List.takeWhile_append_dropWhile]

/-! ## Records -/

/-- `/^[a-z][a-z0-9-]{0,39}$/` -/
def matchesKindPattern (s : CodeUnits) : Bool :=
  match s with
  | [] => false
  | u :: rest =>
    isLowerUnit u && rest.all (fun v ↦ isLowerUnit v || isDigitUnit v || v == 0x2d) &&
      decide (rest.length ≤ 39)

/-- `/^[a-z0-9_-]{1,128}$/i` -/
def matchesIdPattern (s : CodeUnits) : Bool :=
  s.all (fun u ↦ isWordUnit u || u == 0x2d) && decide (1 ≤ s.length ∧ s.length ≤ 128)

/-- Open kind: known kinds get typed records, everything else preserves its payload. -/
abbrev ComposerContextKind := { s : CodeUnits // matchesKindPattern s = true }

/-- Durable identity of one payload. Shared by every chip that points at it. -/
abbrev ComposerContextId := { s : CodeUnits // matchesIdPattern s = true }

instance : LawfulBEq ComposerContextId := inferInstance

structure AttachmentBinding where
  attachmentId : ComposerContextId
  name : CodeUnits
  mimeType : CodeUnits
  sizeBytes : ℕ

structure TerminalContext where
  terminalLabel : CodeUnits
  lineStart : ℕ
  lineEnd : ℕ
  text : CodeUnits
  lineStart_le : lineStart ≤ lineEnd

structure ElementContextSource where
  fileName : Option CodeUnits
  lineNumber : Option ℕ
  columnNumber : Option ℕ

/-- What a picked page element looks like to the agent; shared by element and annotation records. -/
structure ElementContextDetails where
  pageUrl : CodeUnits
  pageTitle : Option CodeUnits
  tagName : CodeUnits
  selector : Option CodeUnits
  htmlPreview : CodeUnits
  componentName : Option CodeUnits
  source : Option ElementContextSource
  styles : CodeUnits

structure PreviewAnnotationContext where
  pageUrl : CodeUnits
  pageTitle : Option CodeUnits
  comment : CodeUnits
  targetSummary : CodeUnits
  styleChanges : List CodeUnits
  elements : Option (List ElementContextDetails)
  screenshotContextId : Option ComposerContextId

structure ReviewCommentContext where
  sectionTitle : CodeUnits
  filePath : CodeUnits
  startIndex : ℕ
  endIndex : ℕ
  rangeLabel : CodeUnits
  text : CodeUnits
  diff : CodeUnits
  fenceLanguage : Option CodeUnits
  startIndex_le : startIndex ≤ endIndex

/-- What a record of a known kind carries. -/
inductive KnownContext where
  | image (binding : AttachmentBinding)
  | file (binding : AttachmentBinding)
  | terminal (context : TerminalContext)
  | element (details : ElementContextDetails)
  | previewAnnotation (context : PreviewAnnotationContext)
  | reviewComment (context : ReviewCommentContext)
  | mention (path : CodeUnits)
  | skill (name : CodeUnits)

def imageKind : ComposerContextKind := ⟨unitsOf "image", by decide⟩
def fileKind : ComposerContextKind := ⟨unitsOf "file", by decide⟩
def terminalKind : ComposerContextKind := ⟨unitsOf "terminal", by decide⟩
def elementKind : ComposerContextKind := ⟨unitsOf "element", by decide⟩
def previewAnnotationKind : ComposerContextKind := ⟨unitsOf "preview-annotation", by decide⟩
def reviewCommentKind : ComposerContextKind := ⟨unitsOf "review-comment", by decide⟩
def mentionKind : ComposerContextKind := ⟨unitsOf "mention", by decide⟩
def skillKind : ComposerContextKind := ⟨unitsOf "skill", by decide⟩

def composerContextKinds : List ComposerContextKind :=
  [imageKind, fileKind, terminalKind, elementKind, previewAnnotationKind, reviewCommentKind,
    mentionKind, skillKind]

def KnownContext.kind : KnownContext → ComposerContextKind
  | image _ => imageKind
  | file _ => fileKind
  | terminal _ => terminalKind
  | element _ => elementKind
  | previewAnnotation _ => previewAnnotationKind
  | reviewComment _ => reviewCommentKind
  | mention _ => mentionKind
  | skill _ => skillKind

/-- What a record carries. Of a kind this build does not know, the payload as JSON text: any text,
since nothing of the projection depends on what it says. -/
inductive ContextBody where
  | known (context : KnownContext)
  | unknown (kind : ComposerContextKind) (hkind : kind ∉ composerContextKinds) (payload : CodeUnits)

structure ComposerContextRecord where
  contextId : ComposerContextId
  label : CodeUnits
  body : ContextBody

def ComposerContextRecord.kind (record : ComposerContextRecord) : ComposerContextKind :=
  match record.body with
  | .known context => context.kind
  | .unknown kind _ _ => kind

/-! ## References in a text -/

/-- `COMPOSER_CONTEXT_LABEL_MAX_CHARS` -/
def labelMaxChars : ℕ := 200

/-- `MAX_LINK_LABEL_LENGTH` -/
def maxLinkLabelLength : ℕ := 512

/-- `COMPOSER_CONTEXT_HREF_PREFIX` -/
def hrefStart : CodeUnits := unitsOf "awen-context://v1/"

/-- What follows `start` in a text that starts with it. -/
def after? (start s : CodeUnits) : Option CodeUnits :=
  if start.isPrefixOf s then some (s.drop start.length) else none

def parseComposerContextHref (href : CodeUnits) :
    Option (ComposerContextKind × ComposerContextId) := do
  let rest ← after? hrefStart href
  match rest.splitOn 0x2f with
  | [kind, contextId] =>
    if hkind : matchesKindPattern kind = true then
      if hid : matchesIdPattern contextId = true then some (⟨kind, hkind⟩, ⟨contextId, hid⟩)
      else none
    else none
  | _ => none

/-- Labels must survive a Markdown link: no brackets or line breaks, bounded, never empty. -/
def sanitizeComposerContextLabel (label : CodeUnits) (kind : ComposerContextKind) : CodeUnits :=
  -- [ ] \ and the line breaks
  let blanked := blankOut
    (fun u ↦ u == 0x5b || u == 0x5d || u == 0x5c || u == 0xd || u == 0xa) label
  let cleaned := (trim (collapseSpaces false blanked)).take labelMaxChars
  if 0 < cleaned.length then cleaned else kind.1

/-- A match of `CONTEXT_LINK`. -/
structure LinkMatch where
  image : Bool
  label : CodeUnits
  href : CodeUnits

/-- `match[0]` -/
def LinkMatch.source (link : LinkMatch) : CodeUnits :=
  (if link.image then [0x21] else []) ++ [0x5b] ++ link.label ++ [0x5d, 0x28] ++ link.href ++ [0x29]

/-- `[^\s)]` -/
def isHrefUnit (u : UInt16) : Bool := !isSpaceUnit u && u != 0x29

/-- `(!?)`: whether it takes a unit, and what follows. -/
def takeBang : CodeUnits → Bool × CodeUnits
  | 0x21 :: rest => (true, rest)
  | text => (false, text)

/-- The match of `CONTEXT_LINK` at the start of a text. What follows a run of the expression is a
unit that the run leaves out, so only the longest run can match. -/
def matchLink (text : CodeUnits) : Option LinkMatch := do
  let rest ← after? [0x5b] (takeBang text).2
  let label := rest.takeWhile fun u ↦ u != 0x5d && u != 0xa
  let rest ← after? [0x5d, 0x28] (rest.drop label.length)
  let rest ← after? hrefStart rest
  let address := rest.takeWhile isHrefUnit
  let _ ← after? [0x29] (rest.drop address.length)
  if label.length ≤ maxLinkLabelLength ∧ 1 ≤ address.length ∧ address.length ≤ 200 then
    some { image := (takeBang text).1, label, href := hrefStart ++ address }
  else none

/-- `text.matchAll(CONTEXT_LINK)`, each match with its `index`. The next `skip` units belong to the
match before. -/
def matchAll (index : ℕ) : ℕ → CodeUnits → List (ℕ × LinkMatch)
  | _, [] => []
  | skip + 1, _ :: text => matchAll (index + 1) skip text
  | 0, u :: text =>
    match matchLink (u :: text) with
    | none => matchAll (index + 1) 0 text
    | some link => (index, link) :: matchAll (index + 1) (link.source.length - 1) text

structure ComposerContextReferenceOccurrence where
  kind : ComposerContextKind
  contextId : ComposerContextId
  label : CodeUnits
  /-- Whether the occurrence used the `![...]` image form. -/
  image : Bool
  source : CodeUnits
  start : ℕ
  stop : ℕ

/-- Whether `part` occurs in a text. -/
def includes (text part : CodeUnits) : Bool := text.tails.any part.isPrefixOf

def occurrenceOf (found : ℕ × LinkMatch) : Option ComposerContextReferenceOccurrence := do
  let (index, link) := found
  let (kind, contextId) ← parseComposerContextHref link.href
  some
    { kind, contextId
      label := sanitizeComposerContextLabel link.label kind
      image := link.image
      source := link.source
      start := index
      stop := index + link.source.length }

def collectComposerContextReferences (text : CodeUnits) :
    List ComposerContextReferenceOccurrence :=
  -- no link can match without the start of the protocol
  if !includes text (unitsOf "](awen-context:") then []
  else (matchAll 0 0 text).filterMap occurrenceOf

/-- `text.slice(start, stop)` -/
def slice (text : CodeUnits) (start stop : ℕ) : CodeUnits := (text.take stop).drop start

def replaceComposerContextReferences (text : CodeUnits)
    (replace : ComposerContextReferenceOccurrence → CodeUnits) : CodeUnits :=
  let (result, cursor) := (collectComposerContextReferences text).foldl
    (fun (result, cursor) occurrence ↦
      (result ++ slice text cursor occurrence.start ++ replace occurrence, occurrence.stop)) ([], 0)
  result ++ text.drop cursor

/-! ## What the provider reads -/

/-- The two tags of the envelope. -/
inductive TagName where
  | awenContext
  | context
  deriving DecidableEq

def TagName.text : TagName → CodeUnits
  | awenContext => unitsOf "awen_context"
  | context => unitsOf "context"

/-- An opening or closing tag. -/
structure Tag where
  closing : Bool
  name : TagName
  deriving DecidableEq

/-- The tag that begins at the start of a text: `/<\/?(?:awen_context|context)\b/i`. Up to the word
boundary there is the whole run of word units. -/
def tagAt (text : CodeUnits) : Option Tag :=
  match text with
  | 0x3c :: rest =>
    let (closing, rest) := match rest with
      | 0x2f :: rest => (true, rest)
      | _ => (false, rest)
    let word := (rest.takeWhile isWordUnit).map lowerUnit
    if word = TagName.awenContext.text then some ⟨closing, .awenContext⟩
    else if word = TagName.context.text then some ⟨closing, .context⟩
    else none
  | _ => none

/-- Captured text is data. A terminal line or PR comment that contains `</awen_context>` or
`</context>` must not be able to close the envelope and forge a record. -/
def escapeComposerContextPayloadText : CodeUnits → CodeUnits
  | [] => []
  | u :: text =>
    (if (tagAt (u :: text)).isSome then unitsOf "&lt;" else [u]) ++
      escapeComposerContextPayloadText text

/-- `value.replace(/u/g, by)` -/
def replaceUnit (u : UInt16) (replacement : CodeUnits) (value : CodeUnits) : CodeUnits :=
  value.flatMap fun v ↦ if v = u then replacement else [v]

def escapeAttribute (value : CodeUnits) : CodeUnits :=
  replaceUnit 0x3e (unitsOf "&gt;") <| replaceUnit 0x3c (unitsOf "&lt;") <|
    replaceUnit 0x22 (unitsOf "&quot;") <| replaceUnit 0x26 (unitsOf "&amp;") value

def indent (text : CodeUnits) : CodeUnits :=
  joinLines ((splitLines text).map (unitsOf "  " ++ ·))

/-- A value that is not `null` and not empty. -/
def truthy (value : Option CodeUnits) : Option CodeUnits := value.filter (· ≠ [])

/-- `if (value) lines.push(...)` -/
def lineIf (name : String) (value : Option CodeUnits) : List CodeUnits :=
  (truthy value).toList.map (unitsOf name ++ ·)

def formatSourceLocation (source : ElementContextSource) : Option CodeUnits := do
  let fileName ← truthy source.fileName
  match source.lineNumber with
  | none => some fileName
  | some lineNumber =>
    some (fileName ++ unitsOf ":" ++ decimal lineNumber ++
      source.columnNumber.elim [] (unitsOf ":" ++ decimal ·))

/-- A heading with the indented text under it, unless the text is blank. -/
def blockIf (heading text : CodeUnits) : List CodeUnits :=
  if trim text = [] then [] else [heading, indent (trim text)]

def formatElementDetails (element : ElementContextDetails) : List CodeUnits :=
  [unitsOf "url: " ++ element.pageUrl, unitsOf "tag: " ++ element.tagName] ++
    lineIf "title: " element.pageTitle ++
    lineIf "selector: " element.selector ++
    lineIf "component: " element.componentName ++
    lineIf "source: " (element.source.bind formatSourceLocation) ++
    blockIf (unitsOf "html:") element.htmlPreview ++
    blockIf (unitsOf "styles:") element.styles

def formatAttachment (binding : AttachmentBinding) : CodeUnits :=
  joinLines
    [unitsOf "name: " ++ binding.name, unitsOf "mimeType: " ++ binding.mimeType,
      unitsOf "sizeBytes: " ++ decimal binding.sizeBytes,
      unitsOf "attachmentId: " ++ binding.attachmentId.1]

def formatTerminal (context : TerminalContext) : CodeUnits :=
  let lines := (splitLines context.text).take (context.lineEnd - context.lineStart + 1)
  joinLines
    ((unitsOf "terminal: " ++ context.terminalLabel) ::
      lines.mapIdx fun index line ↦ decimal (context.lineStart + index) ++ unitsOf " | " ++ line)

def formatPreviewAnnotation (context : PreviewAnnotationContext) : CodeUnits :=
  let page := (truthy (context.pageTitle.map trim)).getD context.pageUrl
  joinLines
    ([unitsOf "page: " ++ page, unitsOf "url: " ++ context.pageUrl] ++
      lineIf "comment: " (some (trim context.comment)) ++
      lineIf "targets: " (some context.targetSummary) ++
      (if 0 < context.styleChanges.length then
        unitsOf "requested visual changes:" :: context.styleChanges.map (unitsOf "- " ++ ·)
      else []) ++
      lineIf "screenshot: ref=" (context.screenshotContextId.map Subtype.val) ++
      ((context.elements.getD []).mapIdx fun index element ↦
        [unitsOf "element " ++ decimal (index + 1) ++ unitsOf ":",
          indent (joinLines (formatElementDetails element))]).flatten)

def formatReviewComment (context : ReviewCommentContext) : CodeUnits :=
  joinLines
    ([unitsOf "file: " ++ context.filePath,
      unitsOf "range: " ++ context.rangeLabel ++ unitsOf " (" ++ decimal context.startIndex ++
        unitsOf "-" ++ decimal context.endIndex ++ unitsOf ")",
      unitsOf "section: " ++ context.sectionTitle] ++
      blockIf (unitsOf "comment:") context.text ++
      -- the start of a diff keeps its spaces
      (if trim context.diff = [] then []
      else [context.fenceLanguage.getD (unitsOf "diff") ++ unitsOf ":",
        indent (trimEnd context.diff)]))

/-- Body lines for one payload, including authoritative paths and names behind display labels. -/
def formatComposerContextProviderPayload : KnownContext → CodeUnits
  | .image binding => formatAttachment binding
  | .file binding => formatAttachment binding
  | .terminal context => formatTerminal context
  | .element details => joinLines (formatElementDetails details)
  | KnownContext.previewAnnotation context => formatPreviewAnnotation context
  | .reviewComment context => formatReviewComment context
  | .mention path => unitsOf "path: " ++ path
  | .skill name => unitsOf "name: " ++ name

def kindDisplayName (kind : ComposerContextKind) : CodeUnits :=
  match blankOut (· == 0x2d) kind.1 with
  | [] => []
  | u :: rest => upperUnit u :: rest

/-- `[Image: shot.png; ref=ctx_1]`: readable in place, with the id the payload is keyed by. -/
def formatComposerContextProviderMarker (kind : ComposerContextKind) (label : CodeUnits)
    (contextId : ComposerContextId) : CodeUnits :=
  -- the line breaks, ; and ]
  let cleanLabel := trim (collapseSpaces false (blankOut
    (fun u ↦ u == 0xd || u == 0xa || u == 0x3b || u == 0x5d) label))
  unitsOf "[" ++ kindDisplayName kind ++ unitsOf ": " ++
    escapeComposerContextPayloadText cleanLabel ++ unitsOf "; ref=" ++ contextId.1 ++ unitsOf "]"

def formatEnvelopeEntry (kind : ComposerContextKind) (contextId : ComposerContextId)
    (record : Option ComposerContextRecord) : CodeUnits :=
  let start := unitsOf "<context kind=\"" ++ escapeAttribute kind.1 ++ unitsOf "\" id=\"" ++
    escapeAttribute contextId.1 ++ unitsOf "\""
  match record with
  | none => start ++ unitsOf " unavailable=\"true\"/>"
  | some record =>
    let body := match record.body with
      | .known context => formatComposerContextProviderPayload context
      | .unknown _ _ payload => payload
    start ++ unitsOf ">\n" ++ escapeComposerContextPayloadText body ++ unitsOf "\n</context>"

/-- The records by id. A second record with an id makes the id ambiguous. -/
def recordsById (records : List ComposerContextRecord) :
    OrderedMap ComposerContextId (Option ComposerContextRecord) :=
  records.foldl (fun map record ↦
    map.set record.contextId (if map.has record.contextId then none else some record)) .empty

/-- `recordsById.get(contextId)` -/
def recordOf (records : List ComposerContextRecord) (contextId : ComposerContextId) :
    Option ComposerContextRecord := ((recordsById records).get contextId).join

/-- `recordsById.get(occurrence.contextId)?.kind ?? occurrence.kind` -/
def kindOf (records : List ComposerContextRecord)
    (occurrence : ComposerContextReferenceOccurrence) : ComposerContextKind :=
  ((recordOf records occurrence.contextId).map (·.kind)).getD occurrence.kind

def markerOf (records : List ComposerContextRecord)
    (occurrence : ComposerContextReferenceOccurrence) : CodeUnits :=
  formatComposerContextProviderMarker (kindOf records occurrence) occurrence.label
    occurrence.contextId

def entryOf (records : List ComposerContextRecord)
    (occurrence : ComposerContextReferenceOccurrence) : CodeUnits :=
  formatEnvelopeEntry (kindOf records occurrence) occurrence.contextId
    (recordOf records occurrence.contextId)

/-- The loop over the occurrences, with the ids it has seen and the entries it has pushed. -/
def envelopeEntries (records : List ComposerContextRecord)
    (occurrences : List ComposerContextReferenceOccurrence) : List CodeUnits :=
  (occurrences.foldl (fun (seen, entries) occurrence ↦
    if occurrence.contextId ∈ seen then (seen, entries)
    else (seen ++ [occurrence.contextId], entries ++ [entryOf records occurrence]))
    (([], []) : List ComposerContextId × List CodeUnits)).2

/-- Every reference becomes an in-place marker, and each unique referenced payload appears once in a
trailing envelope, in first-reference order. Unreferenced records are not emitted. -/
def projectComposerContextForProvider (text : CodeUnits) (records : List ComposerContextRecord) :
    CodeUnits :=
  let occurrences := collectComposerContextReferences text
  if occurrences.length = 0 then text
  else
    let body := replaceComposerContextReferences text (markerOf records)
    let entries := envelopeEntries records occurrences
    if entries.length = 0 then body
    else body ++ unitsOf "\n\n<awen_context version=\"1\">\n" ++ joinLines entries ++
      unitsOf "\n</awen_context>"

end Awen.Composer
