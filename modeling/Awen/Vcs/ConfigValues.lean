import Awen.Vcs.GitConfig

/-!
# The URLs that are read off the values of a configuration

What git writes for a value is read as the value without its outer white space, or not at all where
a Unicode line separator is in it (`textRead_quoteValue`). The backslash that is taken for a
continuation is missed only where a line follows (`textRead_joinedValue`).
-/

namespace Awen.Vcs

open Composer (isSpaceUnit trimEnd trim_eq_self_iff)

/-! ## What is read off a value -/

/-- The URL that is read off a value with nothing behind it. -/
def valueRead (value : CodeUnits) : Option CodeUnits :=
  let kept := if needsQuotes value then value else Composer.trim value
  if kept.any isLineTerminator ∨ Composer.trim value = [] then none else some (Composer.trim value)

/-- The URL that is read off the text behind the equals sign. -/
def textRead (raw : CodeUnits) : Option CodeUnits :=
  let url := parseGitConfigValue (Composer.trim raw)
  if (Composer.trim raw).any isLineTerminator ∨ url = [] then none else some url

/-- The URL that is read off a value, which ends in a backslash where something is joined to it. -/
def urlRead (value more : CodeUnits) : Option CodeUnits :=
  if more = [] then valueRead value else textRead ((quoteValue value).dropLast ++ more)

/-! ## Trimming -/

theorem trimEnd_append_cons (start : CodeUnits) {u : UInt16} (hu : isSpaceUnit u = false)
    (rest : CodeUnits) : trimEnd (start ++ u :: rest) = start ++ u :: trimEnd rest := by
  induction rest using List.reverseRecOn with
  | nil =>
    exact List.rdropWhile_concat_neg _ _ _ (by rw [hu]; exact nofun)
  | append_singleton rest v ih =>
    have hjoin : start ++ u :: (rest ++ [v]) = (start ++ u :: rest) ++ [v] := by
      rw [List.append_assoc, List.cons_append]
    rw [hjoin, trimEnd, trimEnd, List.rdropWhile_concat, List.rdropWhile_concat]
    split
    · exact ih
    · rw [List.append_assoc, List.cons_append]

theorem trim_append_cons {blanks : CodeUnits} (hblanks : ∀ v ∈ blanks, isSpaceUnit v = true)
    {u : UInt16} (hu : isSpaceUnit u = false) (rest : CodeUnits) :
    Composer.trim (blanks ++ u :: rest) = u :: trimEnd rest := by
  rw [Composer.trim, List.dropWhile_append_of_pos hblanks,
    List.dropWhile_cons_of_neg (by rw [hu]; exact Bool.false_ne_true)]
  exact trimEnd_append_cons [] hu rest

theorem trim_of_forall {blanks : CodeUnits} (h : ∀ v ∈ blanks, isSpaceUnit v = true) :
    Composer.trim blanks = [] := by
  rw [Composer.trim, List.dropWhile_eq_nil_iff.mpr h]
  rfl

/-- A text is white space, or something else is in it. -/
theorem forall_isSpaceUnit_or (text : CodeUnits) : (∀ v ∈ text, isSpaceUnit v = true) ∨
    ∃ blanks u rest, text = blanks ++ u :: rest ∧ (∀ v ∈ blanks, isSpaceUnit v = true) ∧
      isSpaceUnit u = false := by
  cases hrest : text.dropWhile isSpaceUnit with
  | nil => exact .inl (List.dropWhile_eq_nil_iff.mp hrest)
  | cons u rest =>
    have hnot := List.head?_dropWhile_not isSpaceUnit text
    rw [hrest] at hnot
    refine .inr ⟨text.takeWhile isSpaceUnit, u, rest, ?_,
      fun v hv ↦ List.mem_takeWhile_imp hv, hnot⟩
    rw [← hrest, List.takeWhile_append_dropWhile]

theorem dropWhile_trimEnd (text : CodeUnits) :
    (trimEnd text).dropWhile isSpaceUnit = Composer.trim text := by
  rcases forall_isSpaceUnit_or text with h | ⟨blanks, u, rest, rfl, hblanks, hu⟩
  · rw [trim_of_forall h, trimEnd, List.rdropWhile_eq_nil_iff.mpr h]
    rfl
  · rw [trimEnd_append_cons _ hu, trim_append_cons hblanks hu,
      List.dropWhile_append_of_pos hblanks,
        List.dropWhile_cons_of_neg (by rw [hu]; exact Bool.false_ne_true)]

theorem trim_space_cons {u : UInt16} (hu : isSpaceUnit u = true) (text : CodeUnits) :
    Composer.trim (u :: text) = Composer.trim text := by
  rw [Composer.trim, List.dropWhile_cons_of_pos hu, Composer.trim]

/-! ## Values -/

theorem escapeValue_cons (u : UInt16) (value : CodeUnits) : escapeValue (u :: value) =
    (if u = 0x22 ∨ u = 0x5c then [0x5c, u] else [u]) ++ escapeValue value := rfl

theorem escapeValue_append (value more : CodeUnits) :
    escapeValue (value ++ more) = escapeValue value ++ escapeValue more := List.flatMap_append

theorem unquoteFrom_cons_of_ne {quoted : Bool} {u : UInt16} (hescape : u ≠ 0x5c) (hquote : u ≠ 0x22)
    (hmark : quoted = true ∨ isCommentMark u = false) (raw : CodeUnits) :
    unquoteFrom quoted false (u :: raw) = u :: unquoteFrom quoted false raw := by
  rw [unquoteFrom, if_neg Bool.false_ne_true, if_neg fun h ↦ hescape h.1, if_neg hquote, if_neg]
  rcases hmark with rfl | hmark
  · exact nofun
  · rw [hmark, Bool.and_false]
    exact nofun

/-- **What is escaped comes back**, inside quotes or where it holds no comment mark. -/
theorem unquoteFrom_escapeValue_append {quoted : Bool} {value : CodeUnits}
    (h : quoted = true ∨ ∀ u ∈ value, isCommentMark u = false) (raw : CodeUnits) :
    unquoteFrom quoted false (escapeValue value ++ raw) =
      value ++ unquoteFrom quoted false raw := by
  induction value with
  | nil => rfl
  | cons u value ih =>
    have hvalue := ih (h.imp_right fun h ↦ (List.forall_mem_cons.mp h).2)
    rw [escapeValue_cons]
    by_cases hu : u = 0x22 ∨ u = 0x5c
    · rw [if_pos hu, List.append_assoc, List.cons_append, List.singleton_append, unquoteFrom,
        if_neg Bool.false_ne_true, if_pos ⟨rfl, List.cons_ne_nil _ _⟩, unquoteFrom, if_pos rfl,
        hvalue, List.cons_append]
    · rw [if_neg hu, List.append_assoc, List.singleton_append,
        unquoteFrom_cons_of_ne (fun h ↦ hu (.inr h)) (fun h ↦ hu (.inl h))
          (h.imp_right fun h ↦ h u List.mem_cons_self), hvalue, List.cons_append]

theorem dropWhile_escapeValue (value : CodeUnits) :
    (escapeValue value).dropWhile isSpaceUnit = escapeValue (value.dropWhile isSpaceUnit) := by
  induction value with
  | nil => rfl
  | cons u value ih =>
    rw [escapeValue_cons]
    by_cases hspace : isSpaceUnit u = true
    · have hu : ¬(u = 0x22 ∨ u = 0x5c) := by
        rintro (rfl | rfl)
        · cases hspace
        · cases hspace
      rw [if_neg hu, List.singleton_append, List.dropWhile_cons_of_pos hspace, ih,
        List.dropWhile_cons_of_pos hspace]
    · rw [List.dropWhile_cons_of_neg hspace, escapeValue_cons]
      split
      · exact List.dropWhile_cons_of_neg (by decide)
      · exact List.dropWhile_cons_of_neg hspace

theorem trimEnd_escapeValue (value : CodeUnits) :
    trimEnd (escapeValue value) = escapeValue (trimEnd value) := by
  induction value using List.reverseRecOn with
  | nil => rfl
  | append_singleton value u ih =>
    have hlast : ∃ start, escapeValue (value ++ [u]) = start ++ [u] ∧
        (isSpaceUnit u = true → start = escapeValue value) := by
      rw [escapeValue_append, escapeValue_cons]
      by_cases hu : u = 0x22 ∨ u = 0x5c
      · refine ⟨escapeValue value ++ [0x5c], ?_, fun hspace ↦ ?_⟩
        · rw [if_pos hu, List.append_assoc]
          rfl
        · rcases hu with rfl | rfl <;> cases hspace
      · exact ⟨_, by rw [if_neg hu]; rfl, fun _ ↦ rfl⟩
    obtain ⟨start, hstart, hspaced⟩ := hlast
    rw [hstart, trimEnd, trimEnd, List.rdropWhile_concat, List.rdropWhile_concat]
    split
    next hspace =>
      rw [hspaced hspace]
      exact ih
    next => exact hstart.symm

theorem trim_escapeValue (value : CodeUnits) :
    Composer.trim (escapeValue value) = escapeValue (Composer.trim value) := by
  rw [Composer.trim, dropWhile_escapeValue, trimEnd_escapeValue, Composer.trim]

theorem any_escapeValue (value : CodeUnits) :
    (escapeValue value).any isLineTerminator = value.any isLineTerminator := by
  induction value with
  | nil => rfl
  | cons u value ih =>
    rw [escapeValue_cons, List.any_append, ih, List.any_cons]
    split
    next hu => rcases hu with rfl | rfl <;> rfl
    next => rw [List.any_cons, List.any_nil, Bool.or_false]

theorem textRead_eq {raw value : CodeUnits}
    (hany : (Composer.trim raw).any isLineTerminator =
      (if needsQuotes value then value else Composer.trim value).any isLineTerminator)
    (hurl : parseGitConfigValue (Composer.trim raw) = Composer.trim value) :
    textRead raw = valueRead value := by
  rw [textRead, valueRead, hany, hurl]

theorem not_mark_trim {value : CodeUnits} (h : needsQuotes value = false) :
    ∀ u ∈ Composer.trim value, isCommentMark u = false := by
  rw [needsQuotes, Bool.or_eq_false_iff, Bool.or_eq_false_iff] at h
  intro u hu
  obtain ⟨before, after, hvalue, -⟩ := Composer.exists_trim value
  have hmem : u ∈ value := by
    rw [hvalue]
    exact List.mem_append_left _ (List.mem_append_right _ hu)
  exact Bool.eq_false_iff.mpr (List.any_eq_false.mp h.1.1 u hmem)

/-- **A value is read** off what git writes for it. -/
theorem textRead_quoteValue (value : CodeUnits) :
    textRead (quoteValue value) = valueRead value := by
  rw [quoteValue]
  by_cases hquotes : needsQuotes value = true
  · rw [if_pos hquotes]
    have htrim : Composer.trim (0x22 :: (escapeValue value ++ [0x22])) =
        0x22 :: (escapeValue value ++ [0x22]) := by
      refine trim_eq_self_iff.mpr ⟨fun u hu ↦ by cases hu; rfl, fun u hu ↦ ?_⟩
      rw [← List.cons_append, List.getLast?_concat] at hu
      cases hu
      rfl
    refine textRead_eq ?_ ?_
    · rw [htrim, if_pos hquotes, List.any_cons, List.any_append, any_escapeValue]
      exact (Bool.false_or _).trans (Bool.or_false _)
    · rw [htrim, parseGitConfigValue]
      have hopen : unquoteFrom false false (0x22 :: (escapeValue value ++ [0x22])) =
          unquoteFrom true false (escapeValue value ++ [0x22]) := rfl
      rw [hopen, unquoteFrom_escapeValue_append (.inl rfl)]
      exact congrArg Composer.trim (List.append_nil value)
  · have hquotes := Bool.eq_false_iff.mpr hquotes
    rw [if_neg (by rw [hquotes]; exact Bool.false_ne_true)]
    refine textRead_eq ?_ ?_
    · rw [trim_escapeValue, any_escapeValue, hquotes]
      rfl
    · have hunquote := @unquoteFrom_escapeValue_append false _ (.inr (not_mark_trim hquotes)) []
      rw [List.append_nil] at hunquote
      rw [trim_escapeValue, parseGitConfigValue, hunquote]
      exact (congrArg Composer.trim (List.append_nil _)).trans (Composer.trim_trim value)

/-- At the end of the file the backslash that is taken for a continuation is missed by nobody. -/
theorem textRead_dropLast {value : CodeUnits} (h : (quoteValue value).getLast? = some 0x5c) :
    textRead (quoteValue value).dropLast = valueRead value := by
  have hquotes : needsQuotes value = false := by
    refine Bool.eq_false_iff.mpr fun hquotes ↦ ?_
    rw [quoteValue, if_pos hquotes, ← List.cons_append, List.getLast?_concat] at h
    cases h
  rw [quoteValue, if_neg (by rw [hquotes]; exact Bool.false_ne_true)] at h ⊢
  obtain ⟨start, rfl⟩ : ∃ start, value = start ++ [0x5c] := by
    rcases List.eq_nil_or_concat' value with rfl | ⟨start, u, rfl⟩
    · cases h
    · refine ⟨start, ?_⟩
      have hnil : escapeValue [] = [] := rfl
      rw [escapeValue_append, escapeValue_cons, hnil, List.append_nil] at h
      by_cases hu : u = 0x22 ∨ u = 0x5c
      · rcases hu with rfl | rfl
        · rw [if_pos (.inl rfl), List.getLast?_append_of_ne_nil _ (by decide)] at h
          cases h
        · rfl
      · rw [if_neg hu, List.getLast?_concat] at h
        exact absurd (.inr (Option.some.inj h)) hu
  have hdrop : (escapeValue (start ++ [0x5c])).dropLast = escapeValue start ++ [0x5c] := by
    rw [escapeValue_append]
    have hlast : escapeValue [0x5c] = [0x5c] ++ [0x5c] := rfl
    rw [hlast, ← List.append_assoc, List.dropLast_concat]
  have hbackslash (text : CodeUnits) : Composer.trim (text ++ [0x5c]) =
      text.dropWhile isSpaceUnit ++ [0x5c] := by
    have hdrop : (text ++ [0x5c]).dropWhile isSpaceUnit =
        text.dropWhile isSpaceUnit ++ [0x5c] := by
      rw [List.dropWhile_append]
      split
      next hempty =>
        rw [List.isEmpty_iff.mp hempty]
        rfl
      next => rfl
    rw [Composer.trim, hdrop]
    exact List.rdropWhile_concat_neg _ _ _ (by decide)
  have hmarks := not_mark_trim hquotes
  rw [hdrop]
  refine textRead_eq ?_ ?_
  · rw [hbackslash, hquotes, if_neg Bool.false_ne_true, hbackslash, dropWhile_escapeValue,
      List.any_append, any_escapeValue, List.any_append]
  · rw [hbackslash] at hmarks ⊢
    have hunquote := @unquoteFrom_escapeValue_append false (start.dropWhile isSpaceUnit)
      (.inr fun u hu ↦ hmarks u (List.mem_append_left _ hu)) [0x5c]
    have hend : unquoteFrom false false [0x5c] = [0x5c] := rfl
    rw [dropWhile_escapeValue, parseGitConfigValue, hunquote, hend, ← hbackslash start,
      Composer.trim_trim]

/-! ## Settings -/

/-- The text behind the equals sign of a setting with what is joined to it. -/
def joinedValue (value more : CodeUnits) : CodeUnits :=
  if (quoteValue value).getLast? == some 0x5c then (quoteValue value).dropLast ++ more
  else quoteValue value

theorem getLast?_settingText (key value : CodeUnits) :
    ((ConfigLine.setting key value).text.getLast? == some 0x5c) =
      ((quoteValue value).getLast? == some 0x5c) := by
  rw [ConfigLine.text, ← List.cons_append]
  cases hvalue : quoteValue value with
  | nil => rw [List.getLast?_append_of_ne_nil _ (List.cons_ne_nil _ _)]; rfl
  | cons u rest =>
    have hsplit : (0x9 :: key) ++ 0x20 :: 0x3d :: 0x20 :: u :: rest =
        ((0x9 :: key) ++ [0x20, 0x3d, 0x20]) ++ u :: rest := by
      rw [List.append_assoc]
      rfl
    rw [hsplit, List.getLast?_append_of_ne_nil _ (List.cons_ne_nil _ _)]

theorem joined_setting (key value more : CodeUnits) :
    (ConfigLine.setting key value).joined more =
      0x9 :: (key ++ 0x20 :: 0x3d :: 0x20 :: joinedValue value more) := by
  rw [ConfigLine.joined, ConfigLine.continues, getLast?_settingText, joinedValue]
  split
  next h =>
    have hne : quoteValue value ≠ [] := fun hnil ↦ by rw [hnil] at h; cases h
    have hsplit : (ConfigLine.setting key value).text =
        (0x9 :: (key ++ [0x20, 0x3d, 0x20])) ++ quoteValue value := by
      rw [ConfigLine.text, List.cons_append, List.append_assoc]
      rfl
    rw [hsplit, List.dropLast_append_of_ne_nil hne, List.append_assoc, List.cons_append,
      List.append_assoc]
    rfl
  next => rfl

/-- **What is read off a logical line** is what its value and what is joined to it say. -/
theorem textRead_joinedValue {key value more : CodeUnits}
    (hmore : (ConfigLine.setting key value).continues = false → more = []) :
    textRead (joinedValue value more) = urlRead value more := by
  rw [ConfigLine.continues, getLast?_settingText] at hmore
  rw [joinedValue, urlRead]
  by_cases hlast : ((quoteValue value).getLast? == some 0x5c) = true
  · rw [if_pos hlast]
    split
    next hnil => rw [hnil, List.append_nil, textRead_dropLast (eq_of_beq hlast)]
    next => rfl
  · rw [if_neg hlast, if_pos (hmore (Bool.eq_false_iff.mpr hlast)), textRead_quoteValue]

end Awen.Vcs
