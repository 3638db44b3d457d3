import Awen.Composer.ContextReferences
import Awen.Library.TextLines

/-!
# Shortcuts

The key of a key binding is a text such as `mod+shift+d`. It is lower-cased and cut at `+`; where it
ends with a `+`, that is the key. `encodeShortcut` writes a shortcut as a text, and
`parseKeybindingShortcut_encodeShortcut` says that a shortcut that was read is read again from it.

Lower-casing is the one of the language, of which `IsLowerCasing` says what is relied on.
-/

namespace Awen.Keybindings

open Composer (isSpaceUnit isUpperUnit trim)

/-! ## Lower-casing -/

/-- **What the language says of lower-casing**: it changes nothing that is lower case. That is a
property of the characters, which ASCII characters have but the capitals, and white space has. -/
structure IsLowerCasing (toLowerCase : CodeUnits → CodeUnits) : Prop where
  idempotent : ∀ s, toLowerCase (toLowerCase s) = toLowerCase s
  ascii : ∀ s, (∀ u ∈ s, u < 0x80 ∧ isUpperUnit u = false) → toLowerCase s = s
  append : ∀ s u t, u = 0x2b ∨ isSpaceUnit u = true →
    (toLowerCase (s ++ u :: t) = s ++ u :: t ↔ toLowerCase s = s ∧ toLowerCase t = t)

/-! ## Reading a shortcut -/

structure KeybindingShortcut where
  key : CodeUnits
  metaKey : Bool
  ctrlKey : Bool
  shiftKey : Bool
  altKey : Bool
  modKey : Bool
  deriving DecidableEq

def normalizeKeyToken (token : CodeUnits) : CodeUnits :=
  if token = unitsOf "space" then unitsOf " "
  else if token = unitsOf "esc" then unitsOf "escape"
  else token

/-- What has been read of a shortcut. -/
structure ShortcutTokens where
  key : Option CodeUnits := none
  metaKey : Bool := false
  ctrlKey : Bool := false
  shiftKey : Bool := false
  altKey : Bool := false
  modKey : Bool := false
  deriving DecidableEq

def ShortcutTokens.read (shortcut : ShortcutTokens) (token : CodeUnits) : Option ShortcutTokens :=
  if token = unitsOf "cmd" ∨ token = unitsOf "meta" then some { shortcut with metaKey := true }
  else if token = unitsOf "ctrl" ∨ token = unitsOf "control" then
    some { shortcut with ctrlKey := true }
  else if token = unitsOf "shift" then some { shortcut with shiftKey := true }
  else if token = unitsOf "alt" ∨ token = unitsOf "option" then
    some { shortcut with altKey := true }
  else if token = unitsOf "mod" then some { shortcut with modKey := true }
  else
    match shortcut.key with
    | some _ => none
    | none => some { shortcut with key := some (normalizeKeyToken token) }

/-- The tokens between the `+`. What is empty at the end stands for the key `+`. -/
def shortcutTokens (value : CodeUnits) : List CodeUnits :=
  let rawTokens := (value.splitOn 0x2b).map trim
  let tokens := rawTokens.rdropWhile (· = [])
  if tokens.length < rawTokens.length then tokens ++ [unitsOf "+"] else tokens

def parseKeybindingShortcut (toLowerCase : CodeUnits → CodeUnits) (value : CodeUnits) :
    Option KeybindingShortcut :=
  let tokens := shortcutTokens (toLowerCase value)
  if [] ∈ tokens then none
  else if tokens = [] then none
  else
    (tokens.foldlM ShortcutTokens.read {}).bind fun shortcut ↦
      shortcut.key.map fun key ↦
        { key
          metaKey := shortcut.metaKey
          ctrlKey := shortcut.ctrlKey
          shiftKey := shortcut.shiftKey
          altKey := shortcut.altKey
          modKey := shortcut.modKey }

/-! ## Writing a shortcut -/

/-- The names of the modifiers that are held. -/
def KeybindingShortcut.modifiers (shortcut : KeybindingShortcut) : List CodeUnits :=
  (if shortcut.modKey then [unitsOf "mod"] else []) ++
    (if shortcut.metaKey then [unitsOf "meta"] else []) ++
    (if shortcut.ctrlKey then [unitsOf "ctrl"] else []) ++
    (if shortcut.altKey then [unitsOf "alt"] else []) ++
    if shortcut.shiftKey then [unitsOf "shift"] else []

/-- A key as it is written. -/
def keyText (key : CodeUnits) : CodeUnits := if key = unitsOf " " then unitsOf "space" else key

def encodeShortcut (shortcut : KeybindingShortcut) : Option CodeUnits :=
  if shortcut.key = [] then none
  else if shortcut.key ≠ unitsOf "+" ∧ 0x2b ∈ shortcut.key then none
  else some ([0x2b].intercalate (shortcut.modifiers ++ [keyText shortcut.key]))

/-- How long a shortcut is written. -/
def KeybindingShortcut.writtenLength (shortcut : KeybindingShortcut) : ℕ :=
  (shortcut.modifiers.map fun modifier ↦ modifier.length + 1).sum + (keyText shortcut.key).length

/-! ## What is relied on of lower-casing -/

variable {toLowerCase : CodeUnits → CodeUnits}

theorem IsLowerCasing.of_append (h : IsLowerCasing toLowerCase) {before s after : CodeUnits}
    (hbefore : ∀ u ∈ before, isSpaceUnit u = true) (hafter : ∀ u ∈ after, isSpaceUnit u = true)
    (hlower : toLowerCase (before ++ s ++ after) = before ++ s ++ after) : toLowerCase s = s := by
  induction before with
  | nil =>
    cases after with
    | nil => rwa [List.append_nil, List.nil_append] at hlower
    | cons u after => exact ((h.append s u after (.inr (hafter u List.mem_cons_self))).mp hlower).1
  | cons u before ih =>
    obtain ⟨hu, hbefore⟩ := List.forall_mem_cons.mp hbefore
    exact ih hbefore ((h.append [] u (before ++ s ++ after) (.inr hu)).mp hlower).2

theorem IsLowerCasing.trim (h : IsLowerCasing toLowerCase) {s : CodeUnits}
    (hlower : toLowerCase s = s) : toLowerCase (trim s) = trim s := by
  obtain ⟨before, after, hs, hbefore, hafter⟩ := Composer.exists_trim s
  rw [hs] at hlower
  exact h.of_append hbefore hafter hlower

/-- The parts of a text that is lower case. -/
theorem IsLowerCasing.unlines_iff (h : IsLowerCasing toLowerCase) {lines : List CodeUnits}
    {rest : CodeUnits} : toLowerCase (unlines 0x2b lines ++ rest) = unlines 0x2b lines ++ rest ↔
      (∀ line ∈ lines, toLowerCase line = line) ∧ toLowerCase rest = rest := by
  induction lines with
  | nil => simp
  | cons line lines ih =>
    rw [unlines_cons, List.append_assoc, List.cons_append, h.append _ _ _ (.inl rfl), ih,
      List.forall_mem_cons, and_assoc]

/-! ## The key of a shortcut that was read -/

/-- The names of modifiers. -/
def modifierNames : List CodeUnits :=
  ["cmd", "meta", "ctrl", "control", "shift", "alt", "option", "mod"].map unitsOf

/-- What a token is that is the key of a shortcut. -/
structure IsKeyToken (toLowerCase : CodeUnits → CodeUnits) (token : CodeUnits) : Prop where
  ne_nil : token ≠ []
  trimmed : trim token = token
  plus : token = unitsOf "+" ∨ 0x2b ∉ token
  lower : toLowerCase token = token
  notModifier : token ∉ modifierNames

theorem ShortcutTokens.read_of_not_mem {shortcut : ShortcutTokens} {token : CodeUnits}
    (htoken : token ∉ modifierNames) (hkey : shortcut.key = none) :
    shortcut.read token = some { shortcut with key := some (normalizeKeyToken token) } := by
  simp only [modifierNames, List.map_cons, List.map_nil, List.mem_cons, List.not_mem_nil, or_false,
    not_or] at htoken
  obtain ⟨hcmd, hmeta, hctrl, hcontrol, hshift, halt, hoption, hmod⟩ := htoken
  rw [read, if_neg (not_or.mpr ⟨hcmd, hmeta⟩), if_neg (not_or.mpr ⟨hctrl, hcontrol⟩),
    if_neg hshift, if_neg (not_or.mpr ⟨halt, hoption⟩), if_neg hmod, hkey]

/-- A token is a modifier, or the key. -/
theorem ShortcutTokens.key_of_read {shortcut shortcut' : ShortcutTokens} {token : CodeUnits}
    (h : shortcut.read token = some shortcut') : shortcut'.key = shortcut.key ∨
      token ∉ modifierNames ∧ shortcut'.key = some (normalizeKeyToken token) := by
  by_cases htoken : token ∈ modifierNames
  · left
    simp only [modifierNames, List.map_cons, List.map_nil, List.mem_cons, List.not_mem_nil,
      or_false] at htoken
    obtain rfl | rfl | rfl | rfl | rfl | rfl | rfl | rfl := htoken <;>
      exact Option.some.inj h ▸ rfl
  · cases hkey : shortcut.key with
    | none =>
      rw [read_of_not_mem htoken hkey] at h
      exact .inr ⟨htoken, Option.some.inj h ▸ rfl⟩
    | some key =>
      left
      simp only [read, hkey] at h
      repeat' split at h
      all_goals simp only [Option.some.injEq, reduceCtorEq] at h
      all_goals exact h ▸ rfl

theorem ShortcutTokens.key_of_foldlM {shortcut shortcut' : ShortcutTokens}
    {tokens : List CodeUnits} (h : tokens.foldlM read shortcut = some shortcut') :
    shortcut'.key = shortcut.key ∨ ∃ token ∈ tokens,
      token ∉ modifierNames ∧ shortcut'.key = some (normalizeKeyToken token) := by
  induction tokens generalizing shortcut with
  | nil =>
    obtain rfl := Option.some.inj h
    exact .inl rfl
  | cons token tokens ih =>
    obtain ⟨next, hread, hnext⟩ := Option.bind_eq_some_iff.mp h
    obtain hkey | ⟨token', htoken', hkey⟩ := ih hnext
    · obtain hsame | htoken := key_of_read hread
      · exact .inl (hkey.trans hsame)
      · exact .inr ⟨token, List.mem_cons_self, htoken.1, hkey.trans htoken.2⟩
    · exact .inr ⟨token', List.mem_cons_of_mem _ htoken', hkey⟩

/-- An ASCII unit that is no upper case letter. -/
def isLowerAscii (u : UInt16) : Bool := decide (u < 0x80) && !isUpperUnit u

theorem isLowerAscii_iff {s : CodeUnits} :
    s.all isLowerAscii = true ↔ ∀ u ∈ s, u < 0x80 ∧ isUpperUnit u = false := by
  simp [isLowerAscii]

/-- The tokens of a text that is lower case. -/
theorem isKeyToken_of_mem_shortcutTokens (h : IsLowerCasing toLowerCase) {value token : CodeUnits}
    (hvalue : toLowerCase value = value) (htoken : token ∈ shortcutTokens value)
    (hne : token ≠ []) (hnot : token ∉ modifierNames) : IsKeyToken toLowerCase token := by
  obtain ⟨lines, rest, hlines, hrest, rfl⟩ := exists_lines 0x2b value
  obtain ⟨hlowerLines, hlowerRest⟩ := h.unlines_iff.mp hvalue
  rw [shortcutTokens, splitOn_unlines_append hlines hrest] at htoken
  have hcases : token = unitsOf "+" ∨ token ∈ (lines ++ [rest]).map trim := by
    split at htoken
    · obtain htoken | htoken := List.mem_append.mp htoken
      · exact .inr ((List.rdropWhile_prefix _ _).subset htoken)
      · exact .inl (List.mem_singleton.mp htoken)
    · exact .inr ((List.rdropWhile_prefix _ _).subset htoken)
  obtain rfl | hmem := hcases
  · exact ⟨hne, by decide, .inl rfl, h.ascii _ (isLowerAscii_iff.mp rfl), hnot⟩
  · obtain ⟨part, hpart, rfl⟩ := List.mem_map.mp hmem
    have hspec : 0x2b ∉ part ∧ toLowerCase part = part := by
      obtain hpart | hpart := List.mem_append.mp hpart
      · exact ⟨hlines _ hpart, hlowerLines _ hpart⟩
      · obtain rfl := List.mem_singleton.mp hpart
        exact ⟨hrest, hlowerRest⟩
    refine ⟨hne, Composer.trim_trim part, .inr fun hplus ↦ hspec.1 ?_, h.trim hspec.2, hnot⟩
    obtain ⟨before, after, hsplit, -, -⟩ := Composer.exists_trim part
    rw [hsplit]
    exact List.mem_append_left _ (List.mem_append_right _ hplus)

/-- **The key of a shortcut that was read.** -/
theorem exists_isKeyToken (h : IsLowerCasing toLowerCase) {value : CodeUnits}
    {shortcut : KeybindingShortcut}
    (hparse : parseKeybindingShortcut toLowerCase value = some shortcut) :
    ∃ token, IsKeyToken toLowerCase token ∧ shortcut.key = normalizeKeyToken token := by
  rw [parseKeybindingShortcut] at hparse
  split at hparse
  · exact nomatch hparse
  next hnil =>
  split at hparse
  · exact nomatch hparse
  obtain ⟨read, hread, hshortcut⟩ := Option.bind_eq_some_iff.mp hparse
  obtain ⟨key, hkey, rfl⟩ := Option.map_eq_some_iff.mp hshortcut
  obtain hnone | ⟨token, htoken, hnot, hread⟩ := ShortcutTokens.key_of_foldlM hread
  · exact nomatch hkey.symm.trans hnone
  · exact ⟨token, isKeyToken_of_mem_shortcutTokens h (h.idempotent value) htoken
      (fun heq ↦ hnil (heq ▸ htoken)) hnot, Option.some.inj (hkey.symm.trans hread)⟩

/-- The written key is a token for the same key. -/
theorem isKeyToken_keyText (h : IsLowerCasing toLowerCase) {token : CodeUnits}
    (htoken : IsKeyToken toLowerCase token) :
    IsKeyToken toLowerCase (keyText (normalizeKeyToken token)) ∧
      normalizeKeyToken (keyText (normalizeKeyToken token)) = normalizeKeyToken token := by
  by_cases hspace : token = unitsOf "space"
  · subst hspace
    exact ⟨htoken, by decide⟩
  by_cases hesc : token = unitsOf "esc"
  · subst hesc
    have hlower := h.ascii (unitsOf "escape") (isLowerAscii_iff.mp rfl)
    exact ⟨⟨by decide, by decide, by decide, hlower, by decide⟩, by decide⟩
  have hnormal : normalizeKeyToken token = token := by
    rw [normalizeKeyToken, if_neg hspace, if_neg hesc]
  have hblank : token ≠ unitsOf " " := by
    rintro rfl
    exact absurd htoken.trimmed (by decide)
  rw [hnormal, keyText, if_neg hblank]
  exact ⟨htoken, hnormal⟩

/-! ## Reading what was written -/

/-- What the names of modifiers have that are written. -/
theorem KeybindingShortcut.modifiers_spec (shortcut : KeybindingShortcut) {modifier : CodeUnits}
    (h : modifier ∈ shortcut.modifiers) : 0x2b ∉ modifier ∧ modifier ≠ [] ∧
      trim modifier = modifier ∧ ∀ u ∈ modifier, u < 0x80 ∧ isUpperUnit u = false := by
  have hmem : modifier ∈ ["mod", "meta", "ctrl", "alt", "shift"].map unitsOf := by
    simp only [modifiers, List.mem_append, List.mem_ite_nil_right, List.mem_singleton] at h
    simp only [List.map_cons, List.map_nil, List.mem_cons, List.not_mem_nil, or_false]
    tauto
  have hall : ∀ modifier ∈ ["mod", "meta", "ctrl", "alt", "shift"].map unitsOf,
      0x2b ∉ modifier ∧ modifier ≠ [] ∧ trim modifier = modifier ∧
        modifier.all isLowerAscii = true := by decide
  obtain ⟨hplus, hne, htrim, hlower⟩ := hall modifier hmem
  exact ⟨hplus, hne, htrim, isLowerAscii_iff.mp hlower⟩

theorem intercalate_concat (shortcut : KeybindingShortcut) (key : CodeUnits) :
    [0x2b].intercalate (shortcut.modifiers ++ [key]) = unlines 0x2b shortcut.modifiers ++ key := by
  induction shortcut.modifiers with
  | nil => exact List.append_nil key
  | cons modifier modifiers ih =>
    rw [List.cons_append, List.intercalate_cons_of_ne_nil (by simp), ih, unlines_cons]
    simp

/-- **A written shortcut has the tokens that it was written with.** -/
theorem shortcutTokens_written (shortcut : KeybindingShortcut) {token : CodeUnits}
    (htoken : IsKeyToken toLowerCase token) :
    shortcutTokens (unlines 0x2b shortcut.modifiers ++ token) = shortcut.modifiers ++ [token] := by
  have hplus : ∀ modifier ∈ shortcut.modifiers, 0x2b ∉ modifier :=
    fun _ h ↦ (shortcut.modifiers_spec h).1
  have htrim : shortcut.modifiers.map trim = shortcut.modifiers :=
    List.map_congr_left (fun _ h ↦ (shortcut.modifiers_spec h).2.2.1) |>.trans (List.map_id _)
  obtain rfl | hnot := htoken.plus
  · have hlines : ∀ line ∈ shortcut.modifiers ++ [[]], (0x2b : UInt16) ∉ line := by
      rw [List.forall_mem_append]
      exact ⟨hplus, by simp⟩
    have hsplit : (unlines 0x2b shortcut.modifiers ++ unitsOf "+").splitOn 0x2b =
        shortcut.modifiers ++ [[]] ++ [[]] := by
      rw [← splitOn_unlines_append hlines (List.not_mem_nil (a := 0x2b)), unlines_append,
        List.append_nil]
      rfl
    have hdrop : (shortcut.modifiers ++ [[]] ++ [[]]).rdropWhile (fun token ↦ token = []) =
        shortcut.modifiers := by
      rw [List.rdropWhile_concat_pos _ _ _ (by simp), List.rdropWhile_concat_pos _ _ _ (by simp),
        List.rdropWhile_eq_self_iff]
      intro hne
      simpa using (shortcut.modifiers_spec (List.getLast_mem hne)).2.1
    rw [shortcutTokens, hsplit]
    simp only [List.map_append, htrim, List.map_cons, List.map_nil]
    rw [show trim [] = [] from rfl, hdrop, if_pos (by simp)]
  · rw [shortcutTokens, splitOn_unlines_append hplus hnot]
    simp only [List.map_append, htrim, List.map_cons, List.map_nil, htoken.trimmed]
    rw [List.rdropWhile_concat_neg _ _ _ (by simpa using htoken.ne_nil), if_neg (by omega)]

/-- The modifiers are read as they are held. -/
theorem foldlM_modifiers (shortcut : KeybindingShortcut) :
    shortcut.modifiers.foldlM ShortcutTokens.read {} =
      some ⟨none, shortcut.metaKey, shortcut.ctrlKey, shortcut.shiftKey, shortcut.altKey,
        shortcut.modKey⟩ := by
  obtain ⟨key, metaKey, ctrlKey, shiftKey, altKey, modKey⟩ := shortcut
  cases metaKey <;> cases ctrlKey <;> cases shiftKey <;> cases altKey <;> cases modKey <;> rfl

/-- What is written reads as the shortcut. -/
theorem parseKeybindingShortcut_written (h : IsLowerCasing toLowerCase)
    {shortcut : KeybindingShortcut} {token : CodeUnits} (htoken : IsKeyToken toLowerCase token)
    (hkey : normalizeKeyToken token = shortcut.key) :
    parseKeybindingShortcut toLowerCase (unlines 0x2b shortcut.modifiers ++ token) =
      some shortcut := by
  have hlower : toLowerCase (unlines 0x2b shortcut.modifiers ++ token) =
      unlines 0x2b shortcut.modifiers ++ token :=
    h.unlines_iff.mpr
      ⟨fun _ hmem ↦ h.ascii _ (shortcut.modifiers_spec hmem).2.2.2, htoken.lower⟩
  have hnil : [] ∉ shortcut.modifiers ++ [token] := by
    rw [List.mem_append, List.mem_singleton]
    rintro (hmem | heq)
    · exact (shortcut.modifiers_spec hmem).2.1 rfl
    · exact htoken.ne_nil heq.symm
  rw [parseKeybindingShortcut, hlower, shortcutTokens_written shortcut htoken]
  rw [if_neg hnil, if_neg (by simp), List.foldlM_append, foldlM_modifiers]
  simp only [Option.bind_eq_bind, Option.bind_some, List.foldlM_cons, List.foldlM_nil,
    ShortcutTokens.read_of_not_mem htoken.notModifier, hkey, Option.pure_def, Option.map_some]

/-- The text of a shortcut. -/
theorem length_written (shortcut : KeybindingShortcut) :
    (unlines 0x2b shortcut.modifiers ++ keyText shortcut.key).length = shortcut.writtenLength := by
  rw [unlines, KeybindingShortcut.writtenLength, List.length_append, List.length_flatMap]
  simp

/-- The text of a shortcut has no white space at its ends. -/
theorem trim_written (shortcut : KeybindingShortcut) {token : CodeUnits}
    (htoken : IsKeyToken toLowerCase token) :
    trim (unlines 0x2b shortcut.modifiers ++ token) = unlines 0x2b shortcut.modifiers ++ token := by
  obtain ⟨hhead, hlast⟩ := Composer.trim_eq_self_iff.mp htoken.trimmed
  refine Composer.trim_eq_self_iff.mpr ⟨fun u hu ↦ ?_, fun u hu ↦ hlast u ?_⟩
  · cases hmodifiers : shortcut.modifiers with
    | nil =>
      rw [hmodifiers] at hu
      exact hhead u hu
    | cons modifier modifiers =>
      obtain ⟨-, hne, htrim, -⟩ := shortcut.modifiers_spec (hmodifiers ▸ List.mem_cons_self)
      refine (Composer.trim_eq_self_iff.mp htrim).1 u ?_
      rw [hmodifiers, unlines_cons, List.append_assoc, List.head?_append_of_ne_nil _ hne] at hu
      exact hu
  · rwa [List.getLast?_append_of_ne_nil _ htoken.ne_nil] at hu

/-- **A shortcut that was read is read again from its text.** -/
theorem parseKeybindingShortcut_encodeShortcut (h : IsLowerCasing toLowerCase) {value : CodeUnits}
    {shortcut : KeybindingShortcut}
    (hparse : parseKeybindingShortcut toLowerCase value = some shortcut) :
    ∃ text, encodeShortcut shortcut = some text ∧ text.length = shortcut.writtenLength ∧
      trim text = text ∧ text ≠ [] ∧ shortcut.key ≠ [] ∧
      shortcut.key.length ≤ (keyText shortcut.key).length ∧
      parseKeybindingShortcut toLowerCase text = some shortcut := by
  obtain ⟨token, htoken, hkey⟩ := exists_isKeyToken h hparse
  obtain ⟨hwritten, hnormal⟩ := isKeyToken_keyText h htoken
  rw [← hkey] at hwritten hnormal
  have hcases : shortcut.key = unitsOf " " ∨ keyText shortcut.key = shortcut.key := by
    rw [keyText]
    split
    · exact .inl ‹_›
    · exact .inr rfl
  have hne : shortcut.key ≠ [] := by
    obtain hblank | hsame := hcases
    · rw [hblank]
      decide
    · exact hsame ▸ hwritten.ne_nil
  refine ⟨unlines 0x2b shortcut.modifiers ++ keyText shortcut.key, ?_, length_written shortcut,
    trim_written shortcut hwritten, by simp [hwritten.ne_nil], hne, ?_,
    parseKeybindingShortcut_written h hwritten hnormal⟩
  · rw [encodeShortcut, if_neg hne, if_neg, intercalate_concat]
    rintro ⟨hplus, hmem⟩
    obtain hblank | hsame := hcases
    · rw [hblank] at hmem
      exact absurd hmem (by decide)
    · rw [hsame] at hwritten
      exact (hwritten.plus.resolve_left hplus) hmem
  · obtain hblank | hsame := hcases
    · rw [hblank]
      decide
    · rw [hsame]

end Awen.Keybindings
