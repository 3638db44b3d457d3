import Awen.Composer.ContextReferences
import Awen.Library.LeftChains
import Mathlib.Data.List.Chain

/-!
# When expressions

The condition of a key binding is a text such as `terminalFocus && !(previewFocus || editing)`. It
is cut into tokens and read by recursive descent, with a limit to how deep parentheses are nested
and how many negations come in a row.

`Spells` and `IsExpression` say what an expression is: which tokens a text spells, and which tokens
make a tree. `parseKeybindingWhenExpression_eq_some_iff` says that the parser accepts exactly that.
-/

namespace Awen.Keybindings

open Composer (isSpaceUnit isLowerUnit isUpperUnit isWordUnit)

/-! ## Tokens -/

inductive WhenToken where
  | identifier (value : CodeUnits)
  | not
  | and
  | or
  | lparen
  | rparen
  deriving DecidableEq

/-- `[A-Za-z_]` -/
def isIdentifierStart (u : UInt16) : Bool := isLowerUnit u || isUpperUnit u || u == 0x5f

/-- `[A-Za-z0-9_.-]` -/
def isIdentifierPart (u : UInt16) : Bool := isWordUnit u || u == 0x2e || u == 0x2d

/-- The tokens of a text. The next `skip` units belong to the token before. -/
def tokenizeFrom : ℕ → CodeUnits → Option (List WhenToken)
  | _, [] => some []
  | skip + 1, _ :: text => tokenizeFrom skip text
  | 0, current :: text =>
    if isSpaceUnit current then tokenizeFrom 0 text
    else if current = 0x26 ∧ text.head? = some 0x26 then (tokenizeFrom 1 text).map (.and :: ·)
    else if current = 0x7c ∧ text.head? = some 0x7c then (tokenizeFrom 1 text).map (.or :: ·)
    else if current = 0x21 then (tokenizeFrom 0 text).map (.not :: ·)
    else if current = 0x28 then (tokenizeFrom 0 text).map (.lparen :: ·)
    else if current = 0x29 then (tokenizeFrom 0 text).map (.rparen :: ·)
    else if isIdentifierStart current then
      let part := text.takeWhile isIdentifierPart
      (tokenizeFrom part.length text).map (.identifier (current :: part) :: ·)
    else none

def tokenizeWhenExpression (expression : CodeUnits) : Option (List WhenToken) :=
  tokenizeFrom 0 expression

/-! ## The parser -/

inductive KeybindingWhenNode where
  | identifier (name : CodeUnits)
  | not (node : KeybindingWhenNode)
  | and (left right : KeybindingWhenNode)
  | or (left right : KeybindingWhenNode)
  deriving DecidableEq

def maxWhenExpressionDepth : ℕ := 64

abbrev WhenReader := TokenReader WhenToken KeybindingWhenNode

/-- `count` negations of a node. -/
def KeybindingWhenNode.negated (node : KeybindingWhenNode) : ℕ → KeybindingWhenNode
  | 0 => node
  | count + 1 => .not (node.negated count)

def parseUnary (parsePrimary : WhenReader) : WhenReader := fun tokens ↦
  let nots := tokens.takeWhile (· = .not)
  if maxWhenExpressionDepth < nots.length then none
  else
    match parsePrimary (tokens.drop nots.length) with
    | none => none
    | some (node, rest) => some (node.negated nots.length, rest)

def parseAnd (parsePrimary : WhenReader) : WhenReader := (parseUnary parsePrimary).chain .and .and

def parseOr (parsePrimary : WhenReader) : WhenReader := (parseAnd parsePrimary).chain .or .or

/-- `levels` is how many more levels of `depth` there are, up to `maxWhenExpressionDepth`. -/
def parsePrimary : (levels : ℕ) → WhenReader
  | 0, _ => none
  | _ + 1, .identifier name :: rest => some (.identifier name, rest)
  | levels + 1, .lparen :: rest =>
    match parseOr (parsePrimary levels) rest with
    | some (node, .rparen :: rest) => some (node, rest)
    | _ => none
  | _ + 1, _ => none

def parseKeybindingWhenExpression (expression : CodeUnits) : Option KeybindingWhenNode :=
  match tokenizeWhenExpression expression with
  | none | some [] => none
  | some tokens =>
    match parseOr (parsePrimary (maxWhenExpressionDepth + 1)) tokens with
    | some (ast, []) => some ast
    | _ => none

/-! ## What an expression is -/

/-- `/^[A-Za-z_][A-Za-z0-9_.-]*$/` -/
def IsIdentifier (name : CodeUnits) : Prop :=
  ∃ start part, name = start :: part ∧ isIdentifierStart start = true ∧
    ∀ u ∈ part, isIdentifierPart u = true

/-- How a token is written. -/
inductive WhenToken.Written : WhenToken → CodeUnits → Prop
  | identifier {name : CodeUnits} : IsIdentifier name → Written (.identifier name) name
  | not : Written .not (unitsOf "!")
  | and : Written .and (unitsOf "&&")
  | or : Written .or (unitsOf "||")
  | lparen : Written .lparen (unitsOf "(")
  | rparen : Written .rparen (unitsOf ")")

/-- **What a text spells**: tokens, with white space between them. -/
inductive Spells : CodeUnits → List WhenToken → Prop
  | nil : Spells [] []
  | space {u : UInt16} {text : CodeUnits} {tokens : List WhenToken} :
      isSpaceUnit u = true → Spells text tokens → Spells (u :: text) tokens
  | token {token : WhenToken} {written text : CodeUnits} {tokens : List WhenToken} :
      token.Written written → Spells text tokens → Spells (written ++ text) (token :: tokens)

abbrev WhenRule := TokenRule WhenToken KeybindingWhenNode

/-- `unary := '!'* primary`, with a limit to the negations in a row. -/
def IsUnary (primary : WhenRule) : WhenRule := fun tokens node ↦
  ∃ count operand node', count ≤ maxWhenExpressionDepth ∧ primary operand node' ∧
    tokens = List.replicate count .not ++ operand ∧ node = node'.negated count

/-- `and := unary ('&&' unary)*` -/
def IsAnd (primary : WhenRule) : WhenRule := LeftChain (IsUnary primary) .and .and

/-- `or := and ('||' and)*` -/
def IsOr (primary : WhenRule) : WhenRule := LeftChain (IsAnd primary) .or .or

/-- `primary := identifier | '(' or ')'`, with at most `depth` nested parentheses. -/
def IsPrimary : (depth : ℕ) → WhenRule
  | 0 => fun tokens node ↦ ∃ name, tokens = [.identifier name] ∧ node = .identifier name
  | depth + 1 => fun tokens node ↦
    (∃ name, tokens = [.identifier name] ∧ node = .identifier name) ∨
      ∃ inner, IsOr (IsPrimary depth) inner node ∧ tokens = .lparen :: inner ++ [.rparen]

/-- **An expression**: the tokens of an `or` within the limits. -/
def IsExpression : WhenRule := IsOr (IsPrimary maxWhenExpressionDepth)

end Awen.Keybindings

/-!
## The grammar of when expressions

The parser of when expressions accepts exactly the expressions: the tokenizer finds the tokens that
a text spells, as long as no two identifiers stand side by side, and the descent reads what the
rules generate.
-/

namespace Awen.Keybindings

open Composer (isSpaceUnit isLowerUnit isUpperUnit isWordUnit isDigitUnit)

/-! ## The tokenizer -/

theorem tokenizeFrom_eq (skip : ℕ) (text : CodeUnits) :
    tokenizeFrom skip text = tokenizeFrom 0 (text.drop skip) := by
  induction skip generalizing text with
  | zero => rfl
  | succ skip ih =>
    cases text with
    | nil => rfl
    | cons u text => exact ih text

/-- **The tokens that are found are spelled.** -/
theorem spells_of_tokenizeFrom {skip : ℕ} {text : CodeUnits} {tokens : List WhenToken}
    (h : tokenizeFrom skip text = some tokens) : Spells (text.drop skip) tokens := by
  induction text generalizing skip tokens with
  | nil =>
    obtain rfl : tokens = [] := by
      cases skip <;> exact (Option.some.inj h).symm
    rw [List.drop_nil]
    exact .nil
  | cons u text ih =>
    cases skip with
    | succ skip => exact ih h
    | zero =>
      have hhead {v : UInt16} (hv : text.head? = some v) : text = v :: text.drop 1 := by
        obtain ⟨text, rfl⟩ := List.head?_eq_some_iff.mp hv
        rfl
      rw [tokenizeFrom] at h
      rw [List.drop_zero]
      split at h
      next hspace => exact .space hspace (by simpa using ih h)
      split at h
      next hand =>
        obtain ⟨tokens, htokens, rfl⟩ := Option.map_eq_some_iff.mp h
        rw [hand.1, hhead hand.2]
        exact .token .and (ih htokens)
      split at h
      next hor =>
        obtain ⟨tokens, htokens, rfl⟩ := Option.map_eq_some_iff.mp h
        rw [hor.1, hhead hor.2]
        exact .token .or (ih htokens)
      split at h
      next hnot =>
        obtain ⟨tokens, htokens, rfl⟩ := Option.map_eq_some_iff.mp h
        rw [hnot]
        exact .token .not (ih htokens)
      split at h
      next hlparen =>
        obtain ⟨tokens, htokens, rfl⟩ := Option.map_eq_some_iff.mp h
        rw [hlparen]
        exact .token .lparen (ih htokens)
      split at h
      next hrparen =>
        obtain ⟨tokens, htokens, rfl⟩ := Option.map_eq_some_iff.mp h
        rw [hrparen]
        exact .token .rparen (ih htokens)
      split at h
      next hstart =>
        obtain ⟨tokens, htokens, rfl⟩ := Option.map_eq_some_iff.mp h
        have hname : IsIdentifier (u :: text.takeWhile isIdentifierPart) :=
          ⟨u, _, rfl, hstart, fun v hv ↦ (List.mem_takeWhile_imp hv)⟩
        have hspells := Spells.token (.identifier hname) (ih htokens)
        rwa [List.cons_append, List.prefix_iff_eq_append.mp (List.takeWhile_prefix _)] at hspells
      next => exact nomatch h

/-- The first unit of an identifier begins nothing else. -/
theorem isIdentifierStart_spec {u : UInt16} (h : isIdentifierStart u = true) :
    isSpaceUnit u = false ∧ u ≠ 0x26 ∧ u ≠ 0x7c ∧ u ≠ 0x21 ∧ u ≠ 0x28 ∧ u ≠ 0x29 := by
  simp only [isIdentifierStart, isSpaceUnit, isLowerUnit, isUpperUnit, Bool.or_eq_true,
    Bool.or_eq_false_iff, decide_eq_true_eq, decide_eq_false_iff_not, beq_iff_eq,
    beq_eq_false_iff_ne, UInt16.le_iff_toNat_le, ← UInt16.toNat_inj, ne_eq] at h ⊢
  simp only [UInt16.reduceToNat] at h ⊢
  omega

/-- White space is no part of an identifier. -/
theorem isIdentifierPart_of_isSpaceUnit {u : UInt16} (h : isSpaceUnit u = true) :
    isIdentifierPart u = false := by
  simp only [isIdentifierPart, isWordUnit, isSpaceUnit, isLowerUnit, isUpperUnit, isDigitUnit,
    Bool.or_eq_true, Bool.or_eq_false_iff, decide_eq_true_eq, decide_eq_false_iff_not, beq_iff_eq,
    beq_eq_false_iff_ne, UInt16.le_iff_toNat_le, ← UInt16.toNat_inj, ne_eq] at h ⊢
  simp only [UInt16.reduceToNat] at h ⊢
  omega

def WhenToken.IsName : WhenToken → Prop
  | identifier _ => True
  | _ => False

/-- What spells no identifier at its beginning does not continue one. -/
theorem Spells.head_not_part {text : CodeUnits} {tokens : List WhenToken} (h : Spells text tokens)
    (hhead : ∀ token ∈ tokens.head?, ¬token.IsName) :
    ∀ u ∈ text.head?, isIdentifierPart u = false := by
  cases h with
  | nil => exact nofun
  | space hspace _ =>
    rintro u ⟨⟩
    exact isIdentifierPart_of_isSpaceUnit hspace
  | token hwritten _ =>
    have hname := hhead _ rfl
    cases hwritten with
    | identifier => exact absurd trivial hname
    | not | and | or | lparen | rparen =>
      rintro u ⟨⟩
      decide

/-- An identifier is found as a whole, where nothing continues it. -/
theorem tokenizeFrom_identifier {name text : CodeUnits} (hname : IsIdentifier name)
    (hhead : ∀ u ∈ text.head?, isIdentifierPart u = false) :
    tokenizeFrom 0 (name ++ text) = (tokenizeFrom 0 text).map (.identifier name :: ·) := by
  obtain ⟨start, part, rfl, hstart, hpart⟩ := hname
  obtain ⟨hspace, hand, hor, hnot, hlparen, hrparen⟩ := isIdentifierStart_spec hstart
  have htext : text.takeWhile isIdentifierPart = [] := by
    cases text with
    | nil => rfl
    | cons u text =>
      rw [List.takeWhile_cons_of_neg]
      rw [hhead u rfl]
      exact nofun
  have htake : (part ++ text).takeWhile isIdentifierPart = part := by
    rw [List.takeWhile_append_of_pos hpart, htext, List.append_nil]
  rw [List.cons_append, tokenizeFrom, if_neg (by rw [hspace]; exact nofun),
    if_neg fun h ↦ hand h.1, if_neg fun h ↦ hor h.1, if_neg hnot, if_neg hlparen, if_neg hrparen,
    if_pos hstart]
  simp only [htake]
  rw [tokenizeFrom_eq, List.drop_left]

/-- Two names do not stand side by side. -/
def Separated (tokens : List WhenToken) : Prop :=
  tokens.IsChain fun before after ↦ ¬(before.IsName ∧ after.IsName)

/-- **Tokens that are spelled are found**, where no two identifiers stand side by side. -/
theorem tokenizeFrom_of_spells {text : CodeUnits} {tokens : List WhenToken}
    (h : Spells text tokens) (hseparated : Separated tokens) :
    tokenizeFrom 0 text = some tokens := by
  induction h with
  | nil => rfl
  | space hspace _ ih => rw [tokenizeFrom, if_pos hspace, ih hseparated]
  | token hwritten hspells ih =>
    obtain ⟨hhead, hseparated⟩ := List.isChain_cons.mp hseparated
    have hfound := ih hseparated
    cases hwritten with
    | identifier hname =>
      rw [tokenizeFrom_identifier hname, hfound]
      · rfl
      · refine hspells.head_not_part fun token htoken hname ↦ ?_
        exact hhead token htoken ⟨trivial, hname⟩
    | not | and | or | lparen | rparen =>
      exact congrArg (Option.map (List.cons _)) hfound

/-! ## The rules -/

/-- **Induction over the grammar.** The depth grows with every pair of parentheses. -/
theorem IsOr.induction {P : ℕ → List WhenToken → KeybindingWhenNode → Prop}
    (identifier : ∀ depth name, P depth [.identifier name] (.identifier name))
    (parens : ∀ {depth tokens node}, P depth tokens node →
      P (depth + 1) (.lparen :: tokens ++ [.rparen]) node)
    (not : ∀ {depth tokens node}, P depth tokens node → P depth (.not :: tokens) (.not node))
    (and : ∀ {depth tokens more left right}, P depth tokens left → P depth more right →
      P depth (tokens ++ .and :: more) (.and left right))
    (or : ∀ {depth tokens more left right}, P depth tokens left → P depth more right →
      P depth (tokens ++ .or :: more) (.or left right))
    {depth : ℕ} {tokens : List WhenToken} {node : KeybindingWhenNode}
    (h : IsOr (IsPrimary depth) tokens node) : P depth tokens node := by
  have hunary {depth : ℕ} (hprimary : ∀ {tokens node}, IsPrimary depth tokens node →
      P depth tokens node) {tokens : List WhenToken} {node : KeybindingWhenNode}
      (h : IsUnary (IsPrimary depth) tokens node) : P depth tokens node := by
    obtain ⟨count, operand, node, -, hoperand, rfl, rfl⟩ := h
    induction count with
    | zero => exact hprimary hoperand
    | succ count ih =>
      rw [List.replicate_succ, List.cons_append]
      exact not ih
  have hor {depth : ℕ} (hprimary : ∀ {tokens node}, IsPrimary depth tokens node →
      P depth tokens node) {tokens : List WhenToken} {node : KeybindingWhenNode}
      (h : IsOr (IsPrimary depth) tokens node) : P depth tokens node :=
    h.closed (fun hand ↦ hand.closed (hunary hprimary) and) or
  refine hor (fun {tokens node} hprimary ↦ ?_) h
  clear h
  induction depth generalizing tokens node with
  | zero =>
    obtain ⟨name, rfl, rfl⟩ := hprimary
    exact identifier 0 name
  | succ depth ih =>
    obtain ⟨name, rfl, rfl⟩ | ⟨inner, hinner, rfl⟩ := hprimary
    · exact identifier _ name
    · exact parens (hor ih hinner)

theorem separated_append {before after : List WhenToken} {token : WhenToken}
    (hbefore : Separated before) (htoken : ¬token.IsName) (hafter : Separated after) :
    Separated (before ++ token :: after) := by
  refine List.isChain_append.mpr ⟨hbefore, List.isChain_cons.mpr ⟨?_, hafter⟩, ?_⟩
  · exact fun _ _ h ↦ htoken h.1
  · rintro _ _ _ ⟨⟩ h
    exact htoken h.2

/-- In an expression an operator or a parenthesis stands between two names. -/
theorem separated_of_isOr {depth : ℕ} {tokens : List WhenToken} {node : KeybindingWhenNode}
    (h : IsOr (IsPrimary depth) tokens node) : Separated tokens := by
  refine IsOr.induction (P := fun _ tokens _ ↦ Separated tokens) ?_ ?_ ?_ ?_ ?_ h
  · exact fun _ _ ↦ List.isChain_singleton _
  · intro _ tokens _ htokens
    exact @separated_append [] _ _ List.isChain_nil nofun
      (separated_append htokens nofun List.isChain_nil)
  · exact fun h ↦ @separated_append [] _ _ List.isChain_nil nofun h
  · exact fun hleft hright ↦ separated_append hleft nofun hright
  · exact fun hleft hright ↦ separated_append hleft nofun hright

/-! ## The parser -/

theorem takeWhile_not (count : ℕ) {tokens : List WhenToken} (htokens : tokens.head? ≠ some .not) :
    (List.replicate count WhenToken.not ++ tokens).takeWhile (· = .not) =
      List.replicate count .not := by
  rw [List.takeWhile_append_of_pos (by simp)]
  cases tokens with
  | nil => rw [List.takeWhile_nil, List.append_nil]
  | cons token tokens =>
    rw [List.takeWhile_cons_of_neg, List.append_nil]
    rintro h
    exact htokens (congrArg some (of_decide_eq_true h))

/-- **Negations are read**, in front of what does not begin with one itself. -/
theorem reads_parseUnary {parsePrimary : WhenReader} {primary : WhenRule}
    {Follows : List WhenToken → Prop} (h : parsePrimary.Reads primary Follows)
    (hhead : ∀ {tokens node rest}, primary tokens node → (tokens ++ rest).head? ≠ some .not) :
    (parseUnary parsePrimary).Reads (IsUnary primary) Follows where
  sound := by
    intro tokens node rest hread
    rw [parseUnary] at hread
    split at hread
    next => exact nomatch hread
    next hcount =>
    split at hread
    next => exact nomatch hread
    next node' rest' hprimary =>
    obtain ⟨rfl, rfl⟩ := Prod.mk.inj (Option.some.inj hread)
    obtain ⟨operand, hoperand, hrule⟩ := h.sound hprimary
    have hnots : ∀ token ∈ tokens.takeWhile (· = .not), token = .not :=
      fun token htoken ↦ by simpa using List.mem_takeWhile_imp htoken
    refine ⟨_, ?_, _, operand, node', Nat.not_lt.mp hcount, hrule, rfl, rfl⟩
    rw [List.append_assoc, ← hoperand, ← List.eq_replicate_of_mem hnots,
      List.prefix_iff_eq_append.mp (List.takeWhile_prefix _)]
  complete := by
    rintro used node rest ⟨count, operand, node', hcount, hoperand, rfl, rfl⟩ hrest
    have hnots := takeWhile_not count (@hhead _ _ rest hoperand)
    rw [parseUnary]
    simp only [List.append_assoc, hnots, List.length_replicate]
    rw [if_neg (Nat.not_lt.mpr hcount), List.drop_left' (List.length_replicate ..),
      h.complete hoperand hrest]

/-- What may follow an expression: neither operator. -/
def NoOperator (rest : List WhenToken) : Prop :=
  (True ∧ rest.head? ≠ some .and) ∧ rest.head? ≠ some .or

theorem reads_parseOr {parsePrimary : WhenReader} {primary : WhenRule}
    (h : parsePrimary.Reads primary fun _ ↦ True)
    (hhead : ∀ {tokens node rest}, primary tokens node → (tokens ++ rest).head? ≠ some .not) :
    (parseOr parsePrimary).Reads (IsOr primary) NoOperator :=
  ((reads_parseUnary h hhead).chain fun _ ↦ trivial).chain fun _ ↦ ⟨trivial, nofun⟩

theorem head_of_isPrimary {depth : ℕ} {tokens : List WhenToken} {node : KeybindingWhenNode}
    (h : IsPrimary depth tokens node) (rest : List WhenToken) :
    (tokens ++ rest).head? ≠ some .not := by
  cases depth with
  | zero =>
    obtain ⟨name, rfl, -⟩ := h
    exact nofun
  | succ depth =>
    obtain ⟨name, rfl, -⟩ | ⟨inner, -, rfl⟩ := h <;> exact nofun

theorem parsePrimary_lparen_eq_some {levels : ℕ} {tokens rest : List WhenToken}
    {node : KeybindingWhenNode} :
    parsePrimary (levels + 1) (.lparen :: tokens) = some (node, rest) ↔
      parseOr (parsePrimary levels) tokens = some (node, .rparen :: rest) := by
  rw [parsePrimary]
  split
  next node' rest' h =>
    rw [h, Option.some.injEq, Option.some.injEq, Prod.mk.injEq, Prod.mk.injEq, List.cons.injEq]
    tauto
  next h =>
    refine ⟨nofun, fun heq ↦ ?_⟩
    exact absurd heq (h node rest)

/-- Deeper than the limit nothing is read. -/
theorem parseOr_parsePrimary_zero (tokens : List WhenToken) :
    parseOr (parsePrimary 0) tokens = none := by
  have hunary : ∀ tokens, parseUnary (parsePrimary 0) tokens = none := by
    intro tokens
    rw [parseUnary]
    exact ite_self _
  rw [parseOr, TokenReader.chain, parseAnd, TokenReader.chain, hunary]

/-- **The descent reads what the rules generate**, level by level. -/
theorem reads_parsePrimary (depth : ℕ) :
    (parsePrimary (depth + 1)).Reads (IsPrimary depth) fun _ ↦ True := by
  induction depth with
  | zero =>
    refine ⟨fun {tokens node rest} hread ↦ ?_, fun {used node rest} hused _ ↦ ?_⟩
    · match tokens, hread with
      | .identifier name :: _, hread =>
        obtain ⟨rfl, rfl⟩ := Prod.mk.inj (Option.some.inj hread)
        exact ⟨[.identifier name], rfl, name, rfl, rfl⟩
      | .lparen :: tokens, hread =>
        rw [parsePrimary_lparen_eq_some, parseOr_parsePrimary_zero] at hread
        exact nomatch hread
    · obtain ⟨name, rfl, rfl⟩ := hused
      rfl
  | succ depth ih =>
    have hor := reads_parseOr ih fun h ↦ head_of_isPrimary h _
    refine ⟨fun {tokens node rest} hread ↦ ?_, fun {used node rest} hused _ ↦ ?_⟩
    · match tokens, hread with
      | .identifier name :: _, hread =>
        obtain ⟨rfl, rfl⟩ := Prod.mk.inj (Option.some.inj hread)
        exact ⟨[.identifier name], rfl, .inl ⟨name, rfl, rfl⟩⟩
      | .lparen :: tokens, hread =>
        rw [parsePrimary_lparen_eq_some] at hread
        obtain ⟨inner, rfl, hinner⟩ := hor.sound hread
        exact ⟨.lparen :: inner ++ [.rparen], by simp, .inr ⟨inner, hinner, rfl⟩⟩
    · obtain ⟨name, rfl, rfl⟩ | ⟨inner, hinner, rfl⟩ := hused
      · rfl
      · rw [List.append_assoc, List.cons_append, parsePrimary_lparen_eq_some]
        exact hor.complete hinner ⟨⟨trivial, nofun⟩, nofun⟩

theorem reads_parseOr_expression :
    (parseOr (parsePrimary (maxWhenExpressionDepth + 1))).Reads IsExpression NoOperator :=
  reads_parseOr (reads_parsePrimary _) fun h ↦ head_of_isPrimary h _

/-- What is parsed is spelled, and an expression. -/
theorem exists_of_parse {expression : CodeUnits} {node : KeybindingWhenNode}
    (h : parseKeybindingWhenExpression expression = some node) :
    ∃ tokens, Spells expression tokens ∧ IsExpression tokens node := by
  rw [parseKeybindingWhenExpression] at h
  split at h
  · exact nomatch h
  · exact nomatch h
  next tokens hne htokens =>
  split at h
  next ast hparse =>
    obtain rfl := Option.some.inj h
    obtain ⟨used, hused, hexpression⟩ := reads_parseOr_expression.sound hparse
    rw [List.append_nil] at hused
    exact ⟨tokens, spells_of_tokenizeFrom htokens, hused ▸ hexpression⟩
  next => exact nomatch h

/-- A text that spells an expression is parsed. -/
theorem parse_of_spells {expression : CodeUnits} {tokens : List WhenToken}
    {node : KeybindingWhenNode} (hspells : Spells expression tokens)
    (hexpression : IsExpression tokens node) :
    parseKeybindingWhenExpression expression = some node := by
  have htokens := tokenizeFrom_of_spells hspells (separated_of_isOr hexpression)
  have hparse := @TokenReader.Reads.complete _ _ _ _ _ reads_parseOr_expression _ _ [] hexpression
    ⟨⟨trivial, nofun⟩, nofun⟩
  rw [List.append_nil] at hparse
  rw [parseKeybindingWhenExpression, tokenizeWhenExpression, htokens]
  cases tokens with
  | nil => exact nomatch hparse
  | cons token tokens => simp only [hparse]

/-- **The parser accepts exactly the grammar.** -/
theorem parseKeybindingWhenExpression_eq_some_iff (expression : CodeUnits)
    (node : KeybindingWhenNode) :
    parseKeybindingWhenExpression expression = some node ↔
      ∃ tokens, Spells expression tokens ∧ IsExpression tokens node :=
  ⟨exists_of_parse, fun ⟨_, hspells, hexpression⟩ ↦ parse_of_spells hspells hexpression⟩

end Awen.Keybindings
