import Awen.WorkLog.CommandTokens

/-!
# Words that are written and read back

`serializeShellTokens` puts each word in single quotes, and writes a single quote in it as `'\''`:
the quotes are closed, a backslash escapes the quote, and they are opened again. Outside quotes, the
tokenizer takes a backslash for a part of a Windows path if what it has read of the word begins one,
unless the unit behind it is one of a few, and a single quote is not among these. So the words are
read back exactly if no single quote stands behind the beginning of a path
(`tokenize_serialize_iff`).
-/

namespace Awen.WorkLog

/-! ## Written words -/

/-- A unit inside single quotes. -/
def quotedUnit (u : UInt16) : CodeUnits := if u = 0x27 then unitsOf "'\\''" else [u]

theorem quotedUnit_quote : quotedUnit 0x27 = [0x27, 0x5c, 0x27, 0x27] := by decide

/-- A word in single quotes. -/
def quotedToken (token : CodeUnits) : CodeUnits := [0x27] ++ token.flatMap quotedUnit ++ [0x27]

/-- Words behind another word. -/
def quotedTokens (tokens : List CodeUnits) : CodeUnits :=
  tokens.flatMap fun token ↦ 0x20 :: quotedToken token

theorem serializeShellTokens_cons (token : CodeUnits) (tokens : List CodeUnits) :
    serializeShellTokens (token :: tokens) = quotedToken token ++ quotedTokens tokens := by
  induction tokens generalizing token with
  | nil =>
    rw [quotedTokens, List.flatMap_nil, List.append_nil, serializeShellTokens, List.map_singleton,
      List.intercalate_singleton]
    rfl
  | cons next tokens ih =>
    have hnext : serializeShellTokens (token :: next :: tokens) =
        quotedToken token ++ 0x20 :: serializeShellTokens (next :: tokens) := rfl
    rw [hnext, ih next, quotedTokens, quotedTokens, List.flatMap_cons, List.cons_append]

theorem getLast?_quotedToken (token : CodeUnits) : (quotedToken token).getLast? = some 0x27 :=
  List.getLast?_concat

theorem getLast?_serializeShellTokens (token : CodeUnits) (tokens : List CodeUnits) :
    (serializeShellTokens (token :: tokens)).getLast? = some 0x27 := by
  rw [serializeShellTokens_cons]
  rcases List.eq_nil_or_concat tokens with rfl | ⟨tokens, last, rfl⟩
  · rw [quotedTokens, List.flatMap_nil, List.append_nil]
    exact getLast?_quotedToken token
  · rw [List.concat_eq_append, quotedTokens, List.flatMap_append, List.flatMap_singleton,
      ← List.append_assoc, ← List.concat_append, List.getLast?_append, getLast?_quotedToken]
    rfl

/-- There is nothing to trim. -/
theorem trim_serializeShellTokens (tokens : List CodeUnits) :
    Composer.trim (serializeShellTokens tokens) = serializeShellTokens tokens := by
  cases tokens with
  | nil => rfl
  | cons token tokens =>
    refine Composer.trim_eq_self_iff.mpr ⟨fun u hu ↦ ?_, fun u hu ↦ ?_⟩
    · rw [serializeShellTokens_cons] at hu
      cases hu
      rfl
    · rw [getLast?_serializeShellTokens] at hu
      cases hu
      rfl

/-! ## Reading a word -/

/-- No single quote of the units stands behind the beginning of a path, where `current` has been
read. -/
def keepsQuotes (current : CodeUnits) : CodeUnits → Bool
  | [] => true
  | u :: units => !(u == 0x27 && isWindowsPathStart current) && keepsQuotes (current ++ [u]) units

/-- Inside the single quotes of a word. -/
def insideQuotes (tokens : List CodeUnits) (current : CodeUnits) : TokenizerState where
  tokens
  current
  quote := some 0x27
  tokenStarted := true

/-- Behind a word. -/
def behindToken (tokens : List CodeUnits) (current : CodeUnits) : TokenizerState where
  tokens
  current
  tokenStarted := true

section Reading

variable {input : CodeUnits} {tokens : List CodeUnits} {current : CodeUnits} {index : ℕ}
  {rest : CodeUnits}

/-- The loop of the tokenizer from a position on. -/
def tokenizeFrom (input : CodeUnits) (index : ℕ) (s : TokenizerState) (units : CodeUnits) :
    Option (List CodeUnits) :=
  indexLoop (tokenizeStep input) tokenizeEnd 0 index s units

theorem tokenizeFrom_cons {u : UInt16} {s s' : TokenizerState}
    (h : tokenizeStep input index u s = .next s' 0) :
    tokenizeFrom input index s (u :: rest) = tokenizeFrom input (index + 1) s' rest := by
  rw [tokenizeFrom, indexLoop, h]
  rfl

theorem tokenizeStep_insideQuotes {u : UInt16} (hu : u ≠ 0x27) :
    tokenizeStep input index u (insideQuotes tokens current) =
      .next (insideQuotes tokens (current ++ [u])) 0 := by
  simp [tokenizeStep, insideQuotes, TokenizerState.add, hu.symm]

theorem tokenizeStep_close : tokenizeStep input index 0x27 (insideQuotes tokens current) =
    .next (behindToken tokens current) 0 := rfl

theorem tokenizeStep_open : tokenizeStep input index 0x27 (behindToken tokens current) =
    .next (insideQuotes tokens current) 0 := rfl

theorem tokenizeStep_start : tokenizeStep input index 0x27 { tokens } =
    .next (insideQuotes tokens []) 0 := rfl

/-- A written unit is read back, unless it is a single quote behind the beginning of a path. -/
theorem tokenizeFrom_quotedUnit {u : UInt16}
    (h : (u == 0x27 && isWindowsPathStart current) = false) :
    tokenizeFrom input index (insideQuotes tokens current) (quotedUnit u ++ rest) =
      tokenizeFrom input (index + (quotedUnit u).length) (insideQuotes tokens (current ++ [u]))
        rest := by
  by_cases hu : u = 0x27
  · subst hu
    have hpath : isWindowsPathStart current = false := h
    have hescape : tokenizeStep input (index + 1) 0x5c (behindToken tokens current) =
        .next { behindToken tokens current with escaping := true } 0 := by
      simp [tokenizeStep, behindToken, hpath]
    have hread : tokenizeStep input (index + 1 + 1) 0x27
        { behindToken tokens current with escaping := true } =
        .next (behindToken tokens (current ++ [0x27])) 0 := rfl
    rw [quotedUnit_quote, List.cons_append, List.cons_append, List.cons_append,
      List.singleton_append, tokenizeFrom_cons tokenizeStep_close, tokenizeFrom_cons hescape,
      tokenizeFrom_cons hread, tokenizeFrom_cons tokenizeStep_open]
    rfl
  · rw [quotedUnit, if_neg hu, List.singleton_append,
      tokenizeFrom_cons (tokenizeStep_insideQuotes hu)]
    rfl

/-- **A written word is read back** if its quotes are kept. -/
theorem tokenizeFrom_quotedUnits {units : CodeUnits} (h : keepsQuotes current units = true) :
    tokenizeFrom input index (insideQuotes tokens current) (units.flatMap quotedUnit ++ rest) =
      tokenizeFrom input (index + (units.flatMap quotedUnit).length)
        (insideQuotes tokens (current ++ units)) rest := by
  induction units generalizing current index with
  | nil =>
    rw [List.append_nil]
    rfl
  | cons u units ih =>
    rw [keepsQuotes, Bool.and_eq_true, Bool.not_eq_true'] at h
    rw [List.flatMap_cons, List.append_assoc, tokenizeFrom_quotedUnit h.1, ih h.2,
      List.length_append, Nat.add_assoc, List.append_cons current u units]

/-- Behind a word, the next one is begun. -/
theorem tokenizeStep_space : tokenizeStep input index 0x20 (behindToken tokens current) =
    .next { tokens := tokens ++ [current] } 0 := rfl

theorem tokenizeFrom_quotedToken {token : CodeUnits} (h : keepsQuotes [] token = true) :
    tokenizeFrom input index { tokens } (quotedToken token ++ rest) =
      tokenizeFrom input (index + (quotedToken token).length) (behindToken tokens token) rest := by
  rw [quotedToken, List.append_assoc, List.append_assoc, List.singleton_append,
    tokenizeFrom_cons tokenizeStep_start, tokenizeFrom_quotedUnits h,
    List.nil_append, List.singleton_append, tokenizeFrom_cons tokenizeStep_close]
  congr 1
  rw [List.length_append, List.length_append, List.length_singleton]
  omega

end Reading

/-! ## Reading something else -/

/-- **A word has been read that is not written**: it begins with `stem`, and the words before it are
`tokens`. -/
def HasStrayed (tokens : List CodeUnits) (stem : CodeUnits) (s : TokenizerState) : Prop :=
  (s.tokens = tokens ∧ stem <+: s.current ∧ s.tokenStarted = true) ∨
    ∃ word more, s.tokens = tokens ++ word :: more ∧ stem <+: word

section Straying

variable {input : CodeUnits} {tokens : List CodeUnits} {stem : CodeUnits} {s : TokenizerState}

theorem HasStrayed.add (h : HasStrayed tokens stem s) (units : CodeUnits) :
    HasStrayed tokens stem (s.add units) := by
  rcases h with ⟨htokens, hstem, -⟩ | h
  · exact .inl ⟨htokens, hstem.trans (List.prefix_append _ _), rfl⟩
  · exact .inr h

/-- The word goes on, or the next one is begun. -/
theorem HasStrayed.push (h : HasStrayed tokens stem s) :
    HasStrayed tokens stem
      { s with tokens := s.tokens ++ [s.current], current := [], tokenStarted := false } := by
  rcases h with ⟨htokens, hstem, -⟩ | ⟨word, more, htokens, hstem⟩
  · exact .inr ⟨s.current, [], congrArg (· ++ [s.current]) htokens, hstem⟩
  · refine .inr ⟨word, more ++ [s.current], ?_, hstem⟩
    change s.tokens ++ [s.current] = _
    rw [htokens, List.append_assoc, List.cons_append]

theorem HasStrayed.start (h : HasStrayed tokens stem s) :
    HasStrayed tokens stem { s with tokenStarted := true } :=
  h.imp (fun h ↦ ⟨h.1, h.2.1, rfl⟩) id

/-- Outside quotes, all units go to the word but quotes and white space. -/
theorem HasStrayed.plainUnit (h : HasStrayed tokens stem s) (index : ℕ) (u : UInt16) :
    (tokenizePlainUnit input index u s).GoesOn (HasStrayed tokens stem) := by
  rw [tokenizePlainUnit]
  refine LoopStep.goesOn_ite (h.add _) ?_
  refine LoopStep.goesOn_ite (h.add _) ?_
  refine LoopStep.goesOn_ite (h.add _) ?_
  refine LoopStep.goesOn_ite (h.add _) ?_
  refine LoopStep.goesOn_ite (h.add _) ?_
  refine LoopStep.goesOn_ite (h.add _) ?_
  refine LoopStep.goesOn_ite (h.add _) ?_
  refine LoopStep.goesOn_ite h.start ?_
  refine LoopStep.goesOn_ite ?_ (h.add _)
  exact LoopStep.goesOn_ite (h.add _) (LoopStep.goesOn_ite h.push h)

/-- **Nothing that is read puts it right.** -/
theorem HasStrayed.step (h : HasStrayed tokens stem s) (index : ℕ) (u : UInt16) :
    (tokenizeStep input index u s).GoesOn (HasStrayed tokens stem) := by
  rw [tokenizeStep]
  refine LoopStep.goesOn_ite (h.add _) (LoopStep.goesOn_ite (LoopStep.goesOn_ite (h.add _) h.start)
    (LoopStep.goesOn_ite (h.add _) (LoopStep.goesOn_ite ?_ (h.plainUnit index u))))
  change HasStrayed tokens stem (if s.quote = some u then _ else _)
  split
  · exact h.start
  · exact h.add _

/-- A word that has been read once stays. -/
theorem HasStrayed.tokenizeFrom_ne (h : HasStrayed tokens stem s) {index : ℕ} {rest : CodeUnits}
    {word : CodeUnits} (hword : ¬stem <+: word) (more : List CodeUnits) :
    tokenizeFrom input index s rest ≠ some (tokens ++ word :: more) := by
  refine indexLoop_of_goesOn (Q := fun result ↦ result ≠ some (tokens ++ word :: more))
    (fun index u _ h ↦ h.step index u) (fun s h heq ↦ ?_) h
  rw [tokenizeEnd] at heq
  split at heq
  · cases heq
  · rcases h with ⟨htokens, hstem, hstarted⟩ | ⟨other, others, htokens, hstem⟩
    · rw [if_pos hstarted, htokens] at heq
      have hlist := List.append_cancel_left (Option.some.inj heq)
      exact hword ((List.cons.inj hlist).1 ▸ hstem)
    · have hlist : ∃ others', tokens ++ other :: others' = tokens ++ word :: more := by
        split at heq
        · refine ⟨others ++ [s.current], ?_⟩
          rw [← Option.some.inj heq, htokens, List.append_assoc, List.cons_append]
        · exact ⟨others, htokens ▸ Option.some.inj heq⟩
      obtain ⟨others', hlist⟩ := hlist
      exact hword ((List.cons.inj (List.append_cancel_left hlist)).1 ▸ hstem)

/-- **A single quote behind the beginning of a path strays**: the backslash that is to escape it
goes to the word. -/
theorem tokenizeFrom_quotedUnits_ne {current units rest : CodeUnits} {index : ℕ}
    (hinput : input.drop index = units.flatMap quotedUnit ++ rest)
    (h : keepsQuotes current units = false) (more : List CodeUnits) :
    tokenizeFrom input index (insideQuotes tokens current) (units.flatMap quotedUnit ++ rest) ≠
      some (tokens ++ (current ++ units) :: more) := by
  induction units generalizing current index with
  | nil => cases h
  | cons u units ih =>
    rw [keepsQuotes, Bool.and_eq_false_iff, Bool.not_eq_false'] at h
    rw [List.flatMap_cons, List.append_assoc] at hinput ⊢
    cases hunit : u == 0x27 && isWindowsPathStart current with
    | false =>
      rw [tokenizeFrom_quotedUnit hunit, List.append_cons current u units]
      refine ih ?_ (h.resolve_left (by rw [hunit]; exact Bool.false_ne_true))
      rw [← List.drop_drop, hinput, List.drop_left]
    | true =>
      obtain ⟨hu, hpath⟩ := Bool.and_eq_true_iff.mp hunit
      obtain rfl := beq_iff_eq.mp hu
      rw [quotedUnit_quote] at hinput ⊢
      have hnext : input[index + 1 + 1]? = some 0x27 := by
        rw [← List.head?_drop, Nat.add_assoc, ← List.drop_drop, hinput]
        rfl
      have hstray : tokenizeStep input (index + 1) 0x5c (behindToken tokens current) =
          .next (behindToken tokens (current ++ [0x5c])) 0 := by
        have hkeeps : ((behindToken tokens current).quote = some 0x22 ∨
            ((behindToken tokens current).quote = none ∧ isWindowsPathStart current)) ∧
            (input[index + 1 + 1]?).any fun next ↦ !(unitsOf "\"\\$`\n").contains next := by
          rw [hnext]
          exact ⟨.inr ⟨rfl, hpath⟩, by decide⟩
        exact (if_neg nofun).trans ((if_pos ⟨rfl, nofun⟩).trans (if_pos hkeeps))
      rw [List.cons_append, List.cons_append, tokenizeFrom_cons tokenizeStep_close,
        tokenizeFrom_cons hstray]
      have hstrayed : HasStrayed tokens (current ++ [0x5c])
          (behindToken tokens (current ++ [0x5c])) := .inl ⟨rfl, List.prefix_rfl, rfl⟩
      refine hstrayed.tokenizeFrom_ne ?_ more
      rw [List.prefix_append_right_inj]
      exact fun hstem ↦ absurd (List.cons_prefix_cons.mp hstem).1 (by decide)

theorem tokenizeFrom_quotedToken_ne {token rest : CodeUnits} {index : ℕ}
    (hinput : input.drop index = quotedToken token ++ rest) (h : keepsQuotes [] token = false)
    (more : List CodeUnits) :
    tokenizeFrom input index { tokens } (quotedToken token ++ rest) ≠
      some (tokens ++ token :: more) := by
  rw [quotedToken, List.append_assoc, List.append_assoc, List.singleton_append] at hinput ⊢
  rw [tokenizeFrom_cons tokenizeStep_start]
  refine tokenizeFrom_quotedUnits_ne ?_ h more
  rw [← List.drop_drop, hinput, List.drop_one, List.tail_cons]

end Straying

/-! ## Round trip -/

section RoundTrip

variable {input : CodeUnits}

/-- **Words behind a word** are read back exactly if all their quotes are kept. -/
theorem tokenizeFrom_quotedTokens_iff {tokens : List CodeUnits} {current : CodeUnits}
    {rest : List CodeUnits} {index : ℕ} (hinput : input.drop index = quotedTokens rest) :
    tokenizeFrom input index (behindToken tokens current) (quotedTokens rest) =
        some (tokens ++ current :: rest) ↔
      ∀ token ∈ rest, keepsQuotes [] token = true := by
  induction rest generalizing tokens current index with
  | nil => exact iff_of_true rfl (List.forall_mem_nil _)
  | cons token rest ih =>
    have hcons : quotedTokens (token :: rest) = 0x20 :: (quotedToken token ++ quotedTokens rest) :=
      List.flatMap_cons
    rw [List.forall_mem_cons, hcons, tokenizeFrom_cons tokenizeStep_space,
      List.append_cons tokens current (token :: rest)]
    rw [hcons] at hinput
    have hdrop : input.drop (index + 1) = quotedToken token ++ quotedTokens rest := by
      rw [← List.drop_drop, hinput, List.drop_one, List.tail_cons]
    cases hkeeps : keepsQuotes [] token with
    | true =>
      rw [tokenizeFrom_quotedToken hkeeps, ih]
      · exact (and_iff_right rfl).symm
      · rw [← List.drop_drop, hdrop, List.drop_left]
    | false =>
      exact iff_of_false (tokenizeFrom_quotedToken_ne hdrop hkeeps rest) fun h ↦ (nomatch h.1)

end RoundTrip

theorem keepsQuotes_iff {current units : CodeUnits} : keepsQuotes current units = true ↔
    ∀ before after, units = before ++ 0x27 :: after →
      isWindowsPathStart (current ++ before) = false := by
  induction units generalizing current with
  | nil => exact iff_of_true rfl fun before after h ↦ absurd h.symm (by simp)
  | cons u units ih =>
    rw [keepsQuotes, Bool.and_eq_true, Bool.not_eq_true', Bool.and_eq_false_iff, ih]
    constructor
    · rintro ⟨hunit, hunits⟩ before after heq
      cases before with
      | nil =>
        obtain ⟨rfl, rfl⟩ := List.cons.inj heq
        rw [List.append_nil]
        exact hunit.resolve_left (by decide)
      | cons v before =>
        obtain ⟨rfl, hrest⟩ := List.cons.inj heq
        rw [List.append_cons current u before]
        exact hunits before after hrest
    · refine fun h ↦ ⟨?_, fun before after heq ↦ ?_⟩
      · by_cases hu : u = 0x27
        · subst hu
          exact .inr (List.append_nil current ▸ h [] units rfl)
        · exact .inl (beq_eq_false_iff_ne.mpr hu)
      · rw [← List.append_cons current u before]
        exact h (u :: before) after (congrArg (u :: ·) heq)

/-- **Words that are written are read back exactly if** no single quote in them stands behind the
beginning of a Windows path. -/
theorem tokenize_serialize_iff (tokens : List CodeUnits) :
    tokenizeShellCommand (serializeShellTokens tokens) = some tokens ↔
      ∀ token ∈ tokens, ∀ before after, token = before ++ 0x27 :: after →
        isWindowsPathStart before = false := by
  have hkeeps : (∀ token ∈ tokens, ∀ before after, token = before ++ 0x27 :: after →
      isWindowsPathStart before = false) ↔ ∀ token ∈ tokens, keepsQuotes [] token = true :=
    forall₂_congr fun token _ ↦ (@keepsQuotes_iff [] token).symm
  rw [hkeeps, tokenizeShellCommand, trim_serializeShellTokens]
  cases tokens with
  | nil => exact iff_of_true rfl (List.forall_mem_nil _)
  | cons token tokens =>
    have hinput : (serializeShellTokens (token :: tokens)).drop 0 =
        quotedToken token ++ quotedTokens tokens := serializeShellTokens_cons token tokens
    change tokenizeFrom _ 0 {} ((serializeShellTokens (token :: tokens)).drop 0) = _ ↔ _
    rw [hinput, List.forall_mem_cons]
    cases htoken : keepsQuotes [] token with
    | true =>
      rw [tokenizeFrom_quotedToken htoken]
      have hrest : (serializeShellTokens (token :: tokens)).drop (0 + (quotedToken token).length) =
          quotedTokens tokens := by
        rw [← List.drop_drop, hinput, List.drop_left]
      exact (tokenizeFrom_quotedTokens_iff hrest).trans (and_iff_right rfl).symm
    | false =>
      exact iff_of_false (tokenizeFrom_quotedToken_ne hinput htoken tokens) fun h ↦ (nomatch h.1)

/-- **Words are not always read back**: the single quote of `.'` stands behind a dot, and what is
written of it is read as a text whose quotes are left open. -/
theorem not_tokenize_serialize : ¬∀ tokens : List CodeUnits, tokens ≠ [] →
    tokenizeShellCommand (serializeShellTokens tokens) = some tokens := by
  intro h
  have hread : tokenizeShellCommand (serializeShellTokens [unitsOf ".'"]) = none := by decide
  cases hread.symm.trans (h [unitsOf ".'"] (List.cons_ne_nil _ _))

end Awen.WorkLog
