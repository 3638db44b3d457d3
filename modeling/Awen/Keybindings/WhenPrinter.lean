import Awen.Keybindings.WhenExpression

/-!
# Writing when expressions

`encodeWhenAst` writes a tree with parentheses around every operator and around what is negated. The
text spells the tree, but the parentheses of the text are as deep as the tree, where those it was
read from need not be: the parser reads the text again exactly if no name stands below more than
`maxWhenExpressionDepth` operators.
-/

namespace Awen.Keybindings

open Composer (isSpaceUnit trim)

def encodeWhenAst : KeybindingWhenNode → CodeUnits
  | .identifier name => name
  | .not node => unitsOf "!(" ++ encodeWhenAst node ++ unitsOf ")"
  | .and left right =>
    unitsOf "(" ++ encodeWhenAst left ++ unitsOf " && " ++ encodeWhenAst right ++ unitsOf ")"
  | .or left right =>
    unitsOf "(" ++ encodeWhenAst left ++ unitsOf " || " ++ encodeWhenAst right ++ unitsOf ")"

namespace KeybindingWhenNode

/-- How many operators a name stands below at most. -/
def depth : KeybindingWhenNode → ℕ
  | identifier _ => 0
  | not node => node.depth + 1
  | and left right => max left.depth right.depth + 1
  | or left right => max left.depth right.depth + 1

/-- How long the tree is written. -/
def writtenLength : KeybindingWhenNode → ℕ
  | identifier name => name.length
  | not node => node.writtenLength + 3
  | and left right => left.writtenLength + right.writtenLength + 6
  | or left right => left.writtenLength + right.writtenLength + 6

/-- Every name of the tree is an identifier. -/
def HasNames : KeybindingWhenNode → Prop
  | identifier name => IsIdentifier name
  | not node => node.HasNames
  | and left right => left.HasNames ∧ right.HasNames
  | or left right => left.HasNames ∧ right.HasNames

/-- The tokens of the tree as it is written. -/
def tokens : KeybindingWhenNode → List WhenToken
  | identifier name => [.identifier name]
  | not node => .not :: .lparen :: node.tokens ++ [.rparen]
  | and left right => .lparen :: (left.tokens ++ .and :: right.tokens) ++ [.rparen]
  | or left right => .lparen :: (left.tokens ++ .or :: right.tokens) ++ [.rparen]

end KeybindingWhenNode

theorem length_encodeWhenAst (node : KeybindingWhenNode) :
    (encodeWhenAst node).length = node.writtenLength := by
  induction node with
  | identifier name => rfl
  | not node ih =>
    rw [encodeWhenAst, KeybindingWhenNode.writtenLength, List.length_append, List.length_append, ih,
      show (unitsOf "!(").length = 2 from rfl, show (unitsOf ")").length = 1 from rfl]
    omega
  | and left right ihl ihr =>
    rw [encodeWhenAst, KeybindingWhenNode.writtenLength, List.length_append, List.length_append,
      List.length_append, List.length_append, ihl, ihr, show (unitsOf "(").length = 1 from rfl,
      show (unitsOf ")").length = 1 from rfl, show (unitsOf " && ").length = 4 from rfl]
    omega
  | or left right ihl ihr =>
    rw [encodeWhenAst, KeybindingWhenNode.writtenLength, List.length_append, List.length_append,
      List.length_append, List.length_append, ihl, ihr, show (unitsOf "(").length = 1 from rfl,
      show (unitsOf ")").length = 1 from rfl, show (unitsOf " || ").length = 4 from rfl]
    omega

/-! ## The text spells the tree -/

theorem Spells.append {text more : CodeUnits} {tokens moreTokens : List WhenToken}
    (h : Spells text tokens) (hmore : Spells more moreTokens) :
    Spells (text ++ more) (tokens ++ moreTokens) := by
  induction h with
  | nil => exact hmore
  | space hspace _ ih => exact .space hspace ih
  | token hwritten _ ih =>
    rw [List.append_assoc]
    exact .token hwritten ih

theorem WhenToken.Written.spells {token : WhenToken} {written : CodeUnits}
    (h : token.Written written) : Spells written [token] := by
  rw [← List.append_nil written]
  exact .token h .nil

/-- An operator between two texts in parentheses. -/
theorem Spells.binary {left right written : CodeUnits} {leftTokens rightTokens : List WhenToken}
    {op : WhenToken} (hleft : Spells left leftTokens) (hop : op.Written written)
    (hright : Spells right rightTokens) :
    Spells (unitsOf "(" ++ left ++ (unitsOf " " ++ written ++ unitsOf " ") ++ right ++ unitsOf ")")
      (.lparen :: (leftTokens ++ op :: rightTokens) ++ [.rparen]) := by
  have hspace : Spells (unitsOf " ") [] := .space (by decide) .nil
  have hbefore := WhenToken.Written.lparen.spells.append hleft
  have hspaced := (hspace.append hop.spells).append hspace
  have htext := ((hbefore.append hspaced).append hright).append WhenToken.Written.rparen.spells
  have htokens : [WhenToken.lparen] ++ leftTokens ++ ([] ++ [op] ++ []) ++ rightTokens ++
      [.rparen] = .lparen :: (leftTokens ++ op :: rightTokens) ++ [.rparen] := by simp
  exact htokens ▸ htext

theorem spells_encodeWhenAst {node : KeybindingWhenNode} (h : node.HasNames) :
    Spells (encodeWhenAst node) node.tokens := by
  induction node with
  | identifier name => exact (WhenToken.Written.identifier h).spells
  | not node ih =>
    have hbefore := WhenToken.Written.not.spells.append WhenToken.Written.lparen.spells
    exact (hbefore.append (ih h)).append WhenToken.Written.rparen.spells
  | and left right ihl ihr => exact (ihl h.1).binary .and (ihr h.2)
  | or left right ihl ihr => exact (ihl h.1).binary .or (ihr h.2)

/-- **What is written is an expression**, as deep as the tree. -/
theorem isUnary_tokens {node : KeybindingWhenNode} {depth : ℕ} (h : node.depth ≤ depth) :
    IsUnary (IsPrimary depth) node.tokens node := by
  induction node generalizing depth with
  | identifier name =>
    refine ⟨0, [.identifier name], .identifier name, Nat.zero_le _, ?_, rfl, rfl⟩
    cases depth with
    | zero => exact ⟨name, rfl, rfl⟩
    | succ depth => exact .inl ⟨name, rfl, rfl⟩
  | not node ih =>
    obtain ⟨depth, rfl⟩ := Nat.exists_eq_add_one.mpr (Nat.lt_of_lt_of_le (Nat.succ_pos _) h)
    exact ⟨1, .lparen :: node.tokens ++ [.rparen], node, by decide,
      .inr ⟨_, .one (.one (ih (Nat.le_of_succ_le_succ h))), rfl⟩, rfl, rfl⟩
  | and left right ihl ihr =>
    obtain ⟨depth, rfl⟩ := Nat.exists_eq_add_one.mpr (Nat.lt_of_lt_of_le (Nat.succ_pos _) h)
    obtain ⟨hl, hr⟩ := Nat.max_le.mp (Nat.le_of_succ_le_succ h)
    exact ⟨0, _, _, Nat.zero_le _, .inr ⟨_, .one (.snoc (.one (ihl hl)) (ihr hr)), rfl⟩, rfl, rfl⟩
  | or left right ihl ihr =>
    obtain ⟨depth, rfl⟩ := Nat.exists_eq_add_one.mpr (Nat.lt_of_lt_of_le (Nat.succ_pos _) h)
    obtain ⟨hl, hr⟩ := Nat.max_le.mp (Nat.le_of_succ_le_succ h)
    exact ⟨0, _, _, Nat.zero_le _, .inr ⟨_, .snoc (.one (.one (ihl hl))) (.one (ihr hr)), rfl⟩,
      rfl, rfl⟩

theorem isOr_tokens {node : KeybindingWhenNode} {depth : ℕ} (h : node.depth ≤ depth) :
    IsOr (IsPrimary depth) node.tokens node :=
  .one (.one (isUnary_tokens h))

/-! ## Nested parentheses -/

/-- At most `depth` parentheses are open at any place, and all are closed at the end. -/
structure Nested (depth : ℕ) (tokens : List WhenToken) : Prop where
  open_le : ∀ before, before <+: tokens →
    before.count .lparen ≤ before.count .rparen + depth
  closed : tokens.count .lparen = tokens.count .rparen

theorem nested_singleton (depth : ℕ) (token : WhenToken) (hl : token ≠ .lparen)
    (hr : token ≠ .rparen) : Nested depth [token] where
  open_le before hbefore := by
    have hcount : before.count .lparen = 0 :=
      List.count_eq_zero.mpr fun hmem ↦ hl (List.mem_singleton.mp (hbefore.subset hmem)).symm
    rw [hcount]
    exact Nat.zero_le _
  closed := by
    rw [List.count_singleton, List.count_singleton, if_neg (by simpa using hl),
      if_neg (by simpa using hr)]

theorem Nested.append {depth : ℕ} {tokens more : List WhenToken} (h : Nested depth tokens)
    (hmore : Nested depth more) : Nested depth (tokens ++ more) where
  open_le before hbefore := by
    obtain hle | ⟨rest, rfl⟩ :=
      List.prefix_or_prefix_of_prefix hbefore (List.prefix_append tokens more)
    · exact h.open_le before hle
    · have hrest := hmore.open_le rest ((List.prefix_append_right_inj tokens).mp hbefore)
      rw [List.count_append, List.count_append, h.closed]
      omega
  closed := by rw [List.count_append, List.count_append, h.closed, hmore.closed]

theorem Nested.parens {depth : ℕ} {tokens : List WhenToken} (h : Nested depth tokens) :
    Nested (depth + 1) (.lparen :: tokens ++ [.rparen]) where
  open_le before hbefore := by
    obtain rfl | ⟨rest, rfl, hrest⟩ := List.prefix_cons_iff.mp hbefore
    · exact Nat.zero_le _
    have hcount : rest.count .lparen ≤ rest.count .rparen + depth := by
      obtain rfl | hrest := List.prefix_concat_iff.mp hrest
      · have hclosed := h.closed
        simp only [List.count_append, List.count_singleton]
        simp
        omega
      · exact h.open_le rest hrest
    simp only [List.count_cons]
    simp
    omega
  closed := by simp [List.count_append, h.closed]

/-- The parentheses of an expression. -/
theorem nested_of_isOr {depth : ℕ} {tokens : List WhenToken} {node : KeybindingWhenNode}
    (h : IsOr (IsPrimary depth) tokens node) : Nested depth tokens := by
  refine IsOr.induction (P := fun depth tokens _ ↦ Nested depth tokens) ?_ ?_ ?_ ?_ ?_ h
  · exact fun depth name ↦ nested_singleton depth _ nofun nofun
  · exact fun h ↦ h.parens
  · exact fun h ↦ (nested_singleton _ .not nofun nofun).append h
  · exact fun hleft hright ↦ hleft.append ((nested_singleton _ .and nofun nofun).append hright)
  · exact fun hleft hright ↦ hleft.append ((nested_singleton _ .or nofun nofun).append hright)

/-- Somewhere in the text of a tree as many parentheses are open as the tree is deep. -/
theorem exists_open (node : KeybindingWhenNode) : ∃ before, before <+: node.tokens ∧
    before.count .lparen = before.count .rparen + node.depth := by
  have hclosed (node : KeybindingWhenNode) :=
    (nested_of_isOr (isOr_tokens (Nat.le_refl node.depth))).closed
  have hbinary (op : WhenToken) (hl : op ≠ .lparen) (hr : op ≠ .rparen)
      {left right : KeybindingWhenNode}
      (ihl : ∃ before, before <+: left.tokens ∧
        before.count .lparen = before.count .rparen + left.depth)
      (ihr : ∃ before, before <+: right.tokens ∧
        before.count .lparen = before.count .rparen + right.depth) :
      ∃ before, before <+: .lparen :: (left.tokens ++ op :: right.tokens) ++ [.rparen] ∧
        before.count .lparen = before.count .rparen + (max left.depth right.depth + 1) := by
    obtain ⟨beforeLeft, hleft, hcountLeft⟩ := ihl
    obtain ⟨beforeRight, hright, hcountRight⟩ := ihr
    obtain hle | hle := Nat.le_total right.depth left.depth
    · refine ⟨.lparen :: beforeLeft, ?_, ?_⟩
      · rw [List.cons_append, List.prefix_cons_inj, List.append_assoc]
        exact hleft.trans (List.prefix_append _ _)
      · rw [max_eq_left hle]
        simp [hcountLeft]
        omega
    · refine ⟨.lparen :: (left.tokens ++ op :: beforeRight), ?_, ?_⟩
      · rw [List.cons_append, List.prefix_cons_inj, List.append_assoc,
          List.prefix_append_right_inj, List.cons_append, List.prefix_cons_inj]
        exact hright.trans (List.prefix_append _ _)
      · rw [max_eq_right hle]
        simp [hcountRight, hclosed left, hl, hr]
        omega
  induction node with
  | identifier name => exact ⟨[], List.nil_prefix, rfl⟩
  | not node ih =>
    obtain ⟨before, hbefore, hcount⟩ := ih
    refine ⟨.not :: .lparen :: before, ?_, ?_⟩
    · rw [KeybindingWhenNode.tokens, List.cons_append, List.cons_append, List.prefix_cons_inj,
        List.prefix_cons_inj]
      exact hbefore.trans (List.prefix_append _ _)
    · simp [KeybindingWhenNode.depth, hcount]
      omega
  | and left right ihl ihr => exact hbinary .and nofun nofun ihl ihr
  | or left right ihl ihr => exact hbinary .or nofun nofun ihl ihr

/-- **What is written is read again exactly if it is not too deep.** -/
theorem parse_encodeWhenAst_iff {node : KeybindingWhenNode} (h : node.HasNames) :
    parseKeybindingWhenExpression (encodeWhenAst node) = some node ↔
      node.depth ≤ maxWhenExpressionDepth := by
  have hspells := spells_encodeWhenAst h
  constructor
  · intro hparse
    obtain ⟨tokens, htext, hexpression⟩ := exists_of_parse hparse
    have htokens : tokens = node.tokens := by
      have hwritten := tokenizeFrom_of_spells hspells
        (separated_of_isOr (isOr_tokens (Nat.le_refl node.depth)))
      have hread := tokenizeFrom_of_spells htext (separated_of_isOr hexpression)
      exact Option.some.inj (hread.symm.trans hwritten)
    obtain ⟨before, hbefore, hcount⟩ := exists_open node
    have hle := (nested_of_isOr hexpression).open_le before (htokens ▸ hbefore)
    omega
  · exact fun hdepth ↦ parse_of_spells hspells (isOr_tokens hdepth)

/-! ## What was read -/

theorem Spells.isIdentifier {text : CodeUnits} {tokens : List WhenToken} (h : Spells text tokens)
    {name : CodeUnits} (hname : .identifier name ∈ tokens) : IsIdentifier name := by
  induction h with
  | nil => exact absurd hname List.not_mem_nil
  | space _ _ ih => exact ih hname
  | token hwritten _ ih =>
    obtain rfl | hname := List.mem_cons.mp hname
    · cases hwritten with
      | identifier hname => exact hname
    · exact ih hname

/-- **A tree that was read has names.** -/
theorem hasNames_of_parse {expression : CodeUnits} {node : KeybindingWhenNode}
    (h : parseKeybindingWhenExpression expression = some node) : node.HasNames := by
  obtain ⟨tokens, hspells, hexpression⟩ := exists_of_parse h
  refine IsOr.induction
    (P := fun _ tokens node ↦ (∀ name, .identifier name ∈ tokens → IsIdentifier name) →
      node.HasNames) ?_ ?_ ?_ ?_ ?_ hexpression fun name ↦ hspells.isIdentifier
  · exact fun depth name hnames ↦ hnames name List.mem_cons_self
  · exact fun ih hnames ↦ ih fun name hname ↦
      hnames name (List.mem_append_left _ (List.mem_cons_of_mem _ hname))
  · exact fun ih hnames ↦ ih fun name hname ↦ hnames name (List.mem_cons_of_mem _ hname)
  · exact fun ihl ihr hnames ↦ ⟨ihl fun name hname ↦ hnames name (List.mem_append_left _ hname),
      ihr fun name hname ↦ hnames name (List.mem_append_right _ (List.mem_cons_of_mem _ hname))⟩
  · exact fun ihl ihr hnames ↦ ⟨ihl fun name hname ↦ hnames name (List.mem_append_left _ hname),
      ihr fun name hname ↦ hnames name (List.mem_append_right _ (List.mem_cons_of_mem _ hname))⟩

theorem IsIdentifier.not_space {name : CodeUnits} (h : IsIdentifier name) {u : UInt16}
    (hu : u ∈ name) : isSpaceUnit u = false := by
  obtain ⟨start, part, rfl, hstart, hpart⟩ := h
  obtain rfl | hu := List.mem_cons.mp hu
  · exact (isIdentifierStart_spec hstart).1
  · by_contra hspace
    have hnot := isIdentifierPart_of_isSpaceUnit (Bool.not_eq_false _ ▸ hspace)
    rw [hpart u hu] at hnot
    exact nomatch hnot

/-- The text of a tree has no white space at its ends. -/
theorem trim_encodeWhenAst {node : KeybindingWhenNode} (h : node.HasNames) :
    trim (encodeWhenAst node) = encodeWhenAst node := by
  have hends (first last : UInt16) (hfirst : isSpaceUnit first = false)
      (hlast : isSpaceUnit last = false) (s : CodeUnits) :
      trim (first :: s ++ [last]) = first :: s ++ [last] := by
    refine Composer.trim_eq_self_iff.mpr ⟨?_, ?_⟩
    · rintro u ⟨⟩
      exact hfirst
    · intro u hu
      rw [List.getLast?_concat] at hu
      exact Option.some.inj hu ▸ hlast
  cases node with
  | identifier name =>
    refine Composer.trim_eq_self_iff.mpr ⟨fun u hu ↦ ?_, fun u hu ↦ ?_⟩
    · exact IsIdentifier.not_space h (List.mem_of_mem_head? hu)
    · exact IsIdentifier.not_space h (List.mem_of_mem_getLast? hu)
  | not node => exact hends 0x21 0x29 (by decide) (by decide) _
  | and left right => exact hends 0x28 0x29 (by decide) (by decide) _
  | or left right => exact hends 0x28 0x29 (by decide) (by decide) _

end Awen.Keybindings
