import Awen.Keybindings.Shortcut
import Awen.Keybindings.WhenPrinter

/-!
# Rules and resolved rules

A rule has a key and a condition as texts. `compileResolvedKeybindingRule` reads them, and
`ResolvedKeybindingFromConfig` is the codec between rules and resolved rules: it checks the lengths
of the texts on both ways and writes a resolved rule with `encodeShortcut` and `encodeWhenAst`.

`survivesEncode_iff` says which resolved rules come back from their encoding. A condition is written
with more parentheses than it was read with, so that it can get too long, or too deep for the
parser.
-/

namespace Awen.Keybindings

open Composer (trim)

variable {Command : Type}

/-! ## Rules -/

def maxKeybindingValueLength : ℕ := 64

def maxKeybindingWhenLength : ℕ := 256

def isKeybindingValue (value : CodeUnits) : Bool :=
  decide (1 ≤ value.length) && decide (value.length ≤ maxKeybindingValueLength)

def isKeybindingWhen (value : CodeUnits) : Bool :=
  decide (1 ≤ value.length) && decide (value.length ≤ maxKeybindingWhenLength)

structure KeybindingRule (Command : Type) where
  key : CodeUnits
  command : Command
  when : Option CodeUnits
  deriving DecidableEq

namespace KeybindingRule

variable (rule : KeybindingRule Command)

def isValid : Bool := isKeybindingValue rule.key && rule.when.all isKeybindingWhen

def trimmed : KeybindingRule Command :=
  { rule with key := trim rule.key, when := rule.when.map trim }

/-- The rule in a configuration. -/
def decode : Option (KeybindingRule Command) :=
  if rule.trimmed.isValid then some rule.trimmed else none

def encode : Option (KeybindingRule Command) := if rule.isValid then some rule.trimmed else none

end KeybindingRule

/-! ## Resolved rules -/

/-- Every name of the tree has a character. -/
def KeybindingWhenNode.isValid : KeybindingWhenNode → Bool
  | identifier name => decide (name ≠ [])
  | not node => node.isValid
  | and left right => left.isValid && right.isValid
  | or left right => left.isValid && right.isValid

structure ResolvedKeybindingRule (Command : Type) where
  command : Command
  shortcut : KeybindingShortcut
  whenAst : Option KeybindingWhenNode
  deriving DecidableEq

def ResolvedKeybindingRule.isValid (resolved : ResolvedKeybindingRule Command) : Bool :=
  isKeybindingValue resolved.shortcut.key && resolved.whenAst.all KeybindingWhenNode.isValid

def compileResolvedKeybindingRule (toLowerCase : CodeUnits → CodeUnits)
    (rule : KeybindingRule Command) : Option (ResolvedKeybindingRule Command) :=
  match parseKeybindingShortcut toLowerCase rule.key with
  | none => none
  | some shortcut =>
    match rule.when with
    | some when =>
      match parseKeybindingWhenExpression when with
      | none => none
      | some whenAst => some { command := rule.command, shortcut, whenAst := some whenAst }
    | none => some { command := rule.command, shortcut, whenAst := none }

namespace ResolvedKeybindingFromConfig

def decode (toLowerCase : CodeUnits → CodeUnits) (config : KeybindingRule Command) :
    Option (ResolvedKeybindingRule Command) :=
  (config.decode.bind (compileResolvedKeybindingRule toLowerCase)).filter
    ResolvedKeybindingRule.isValid

def encode (resolved : ResolvedKeybindingRule Command) : Option (KeybindingRule Command) :=
  if resolved.isValid then
    (encodeShortcut resolved.shortcut).bind fun key ↦
      KeybindingRule.encode
        { key, command := resolved.command, when := resolved.whenAst.map encodeWhenAst }
  else none

end ResolvedKeybindingFromConfig

open ResolvedKeybindingFromConfig (decode encode)

/-- **A rule survives an encode**: encoding it succeeds, and decoding gives it back. -/
def ResolvedKeybindingRule.SurvivesEncode (toLowerCase : CodeUnits → CodeUnits)
    (resolved : ResolvedKeybindingRule Command) : Prop :=
  ∃ config, encode resolved = some config ∧ decode toLowerCase config = some resolved

/-- A resolved rule is short enough where it is written, and its condition is not too deep. -/
def ResolvedKeybindingRule.Fits (resolved : ResolvedKeybindingRule Command) : Prop :=
  resolved.shortcut.writtenLength ≤ maxKeybindingValueLength ∧
    ∀ node ∈ resolved.whenAst, node.writtenLength ≤ maxKeybindingWhenLength ∧
      node.depth ≤ maxWhenExpressionDepth

/-! ## Which rules survive -/

theorem isKeybindingValue_iff {value : CodeUnits} : isKeybindingValue value = true ↔
    value ≠ [] ∧ value.length ≤ maxKeybindingValueLength := by
  rw [isKeybindingValue, Bool.and_eq_true, decide_eq_true_eq, decide_eq_true_eq,
    Nat.one_le_iff_ne_zero, ne_eq, List.length_eq_zero_iff]

theorem isKeybindingWhen_iff {value : CodeUnits} : isKeybindingWhen value = true ↔
    value ≠ [] ∧ value.length ≤ maxKeybindingWhenLength := by
  rw [isKeybindingWhen, Bool.and_eq_true, decide_eq_true_eq, decide_eq_true_eq,
    Nat.one_le_iff_ne_zero, ne_eq, List.length_eq_zero_iff]

theorem KeybindingWhenNode.HasNames.isValid {node : KeybindingWhenNode} (h : node.HasNames) :
    node.isValid = true := by
  induction node with
  | identifier name =>
    obtain ⟨start, part, rfl, -⟩ := h
    exact decide_eq_true nofun
  | not node ih => exact ih h
  | and left right ihl ihr => exact (Bool.and_eq_true ..).mpr ⟨ihl h.1, ihr h.2⟩
  | or left right ihl ihr => exact (Bool.and_eq_true ..).mpr ⟨ihl h.1, ihr h.2⟩

theorem encodeWhenAst_ne_nil {node : KeybindingWhenNode} (h : node.HasNames) :
    encodeWhenAst node ≠ [] := by
  cases node with
  | identifier name =>
    obtain ⟨start, part, rfl, -⟩ := h
    exact nofun
  | not | and | or => exact nofun

/-- What a rule compiles to. -/
theorem compile_eq_some_iff {toLowerCase : CodeUnits → CodeUnits} {rule : KeybindingRule Command}
    {resolved : ResolvedKeybindingRule Command} :
    compileResolvedKeybindingRule toLowerCase rule = some resolved ↔
      parseKeybindingShortcut toLowerCase rule.key = some resolved.shortcut ∧
        rule.command = resolved.command ∧
        rule.when.map parseKeybindingWhenExpression = resolved.whenAst.map some := by
  obtain ⟨command, shortcut, whenAst⟩ := resolved
  rw [compileResolvedKeybindingRule]
  cases hshortcut : parseKeybindingShortcut toLowerCase rule.key with
  | none => simp
  | some shortcut' =>
    cases hwhen : rule.when with
    | none =>
      cases whenAst <;> simp
      tauto
    | some when =>
      cases hparse : parseKeybindingWhenExpression when with
      | none => cases whenAst <;> simp [hparse]
      | some node =>
        cases whenAst <;> simp [hparse]
        tauto

section

variable {toLowerCase : CodeUnits → CodeUnits} {rule : KeybindingRule Command}
  {resolved : ResolvedKeybindingRule Command}

/-- Every condition of a rule that compiles has names. -/
theorem hasNames_of_compile (h : compileResolvedKeybindingRule toLowerCase rule = some resolved)
    {node : KeybindingWhenNode} (hnode : node ∈ resolved.whenAst) : node.HasNames := by
  have hwhen := (compile_eq_some_iff.mp h).2.2
  rw [Option.mem_def.mp hnode, Option.map_some] at hwhen
  obtain ⟨when, -, hparse⟩ := Option.map_eq_some_iff.mp hwhen
  exact hasNames_of_parse hparse

/-- The rule that a resolved rule is written as, with the text of its shortcut. -/
def ResolvedKeybindingRule.config (resolved : ResolvedKeybindingRule Command) (key : CodeUnits) :
    KeybindingRule Command :=
  { key, command := resolved.command, when := resolved.whenAst.map encodeWhenAst }

variable (hnames : ∀ node ∈ resolved.whenAst, node.HasNames)

include hnames

theorem trimmed_config {key : CodeUnits} (hkey : trim key = key) :
    (resolved.config key).trimmed = resolved.config key := by
  rw [KeybindingRule.trimmed, ResolvedKeybindingRule.config, hkey, Option.map_map]
  congr 1
  exact Option.map_congr fun node hnode ↦ trim_encodeWhenAst (hnames node hnode)

theorem isValid_config {key : CodeUnits} (hkey : key ≠ []) :
    (resolved.config key).isValid = true ↔ key.length ≤ maxKeybindingValueLength ∧
      ∀ node ∈ resolved.whenAst, node.writtenLength ≤ maxKeybindingWhenLength := by
  rw [KeybindingRule.isValid, Bool.and_eq_true, ResolvedKeybindingRule.config,
    isKeybindingValue_iff, Option.all_map, Option.all_eq_true]
  refine and_congr (and_iff_right hkey) (forall₂_congr fun node hnode ↦ ?_)
  rw [isKeybindingWhen_iff, length_encodeWhenAst]
  exact and_iff_right (encodeWhenAst_ne_nil (hnames node hnode))

theorem compile_config {key : CodeUnits}
    (hkey : parseKeybindingShortcut toLowerCase key = some resolved.shortcut) :
    compileResolvedKeybindingRule toLowerCase (resolved.config key) = some resolved ↔
      ∀ node ∈ resolved.whenAst, node.depth ≤ maxWhenExpressionDepth := by
  rw [compile_eq_some_iff, ResolvedKeybindingRule.config]
  simp only [hkey, true_and]
  cases hwhen : resolved.whenAst with
  | none => simp
  | some node =>
    simp only [Option.map_some, Option.some.injEq, Option.mem_some_iff, forall_eq']
    exact parse_encodeWhenAst_iff (hnames node hwhen)

theorem isValid_resolved (hne : resolved.shortcut.key ≠ []) : resolved.isValid = true ↔
    resolved.shortcut.key.length ≤ maxKeybindingValueLength := by
  rw [ResolvedKeybindingRule.isValid, Bool.and_eq_true, isKeybindingValue_iff, and_iff_right hne,
    Option.all_eq_true]
  exact and_iff_left fun node hnode ↦ (hnames node hnode).isValid

omit hnames

/-- **A rule that compiles survives an encode exactly if it fits.** -/
theorem survivesEncode_iff (h : IsLowerCasing toLowerCase)
    (hcompile : compileResolvedKeybindingRule toLowerCase rule = some resolved) :
    resolved.SurvivesEncode toLowerCase ↔ resolved.Fits := by
  have hnames : ∀ node ∈ resolved.whenAst, node.HasNames := fun _ ↦ hasNames_of_compile hcompile
  obtain ⟨text, hencode, hlength, htrim, htext, hne, hkeyLength, hparse⟩ :=
    parseKeybindingShortcut_encodeShortcut h (compile_eq_some_iff.mp hcompile).1
  have htrimmed := trimmed_config hnames htrim
  have hencoded : encode resolved =
      if resolved.isValid ∧ (resolved.config text).isValid then some (resolved.config text)
      else none := by
    rw [encode, hencode, Option.bind_some, KeybindingRule.encode, ← ResolvedKeybindingRule.config,
      htrimmed, ite_and]
  have hdecoded : decode toLowerCase (resolved.config text) =
      ((if (resolved.config text).isValid then some (resolved.config text) else none).bind
        (compileResolvedKeybindingRule toLowerCase)).filter ResolvedKeybindingRule.isValid := by
    rw [decode, KeybindingRule.decode, htrimmed]
  constructor
  · rintro ⟨config, hconfig, hdecode⟩
    rw [hencoded] at hconfig
    split at hconfig
    next hvalid =>
      obtain rfl := Option.some.inj hconfig
      rw [hdecoded, if_pos hvalid.2, Option.bind_some] at hdecode
      have hcompiled := (Option.filter_eq_some_iff.mp hdecode).1
      obtain ⟨hkey, hwhen⟩ := (isValid_config hnames htext).mp hvalid.2
      have hdepth := (compile_config hnames hparse).mp hcompiled
      exact ⟨hlength ▸ hkey, fun node hnode ↦ ⟨hwhen node hnode, hdepth node hnode⟩⟩
    next => exact nomatch hconfig
  · rintro ⟨hkey, hwhen⟩
    have hconfig : (resolved.config text).isValid = true :=
      (isValid_config hnames htext).mpr ⟨hlength ▸ hkey, fun node hnode ↦ (hwhen node hnode).1⟩
    have hvalid : resolved.isValid = true := by
      refine (isValid_resolved hnames hne).mpr (hkeyLength.trans ?_)
      rw [KeybindingShortcut.writtenLength] at hkey
      omega
    refine ⟨resolved.config text, hencoded.trans (if_pos ⟨hvalid, hconfig⟩), ?_⟩
    rw [hdecoded, if_pos hconfig, Option.bind_some,
      (compile_config hnames hparse).mpr fun node hnode ↦ (hwhen node hnode).2]
    exact Option.filter_eq_some_iff.mpr ⟨rfl, hvalid⟩

end

/-! ## Examples -/

section Examples

open Composer (isSpaceUnit isUpperUnit lowerUnit)

theorem lowerUnit_eq_self_iff {u : UInt16} : lowerUnit u = u ↔ isUpperUnit u = false := by
  rw [lowerUnit]
  split
  next h =>
    rw [h]
    refine ⟨fun heq ↦ ?_, nofun⟩
    have hnat := congrArg UInt16.toNat heq
    have hlt := u.toNat_lt
    rw [UInt16.toNat_add, show (0x20 : UInt16).toNat = 32 from rfl] at hnat
    omega
  next h => simpa using h

theorem isUpperUnit_lowerUnit (u : UInt16) : isUpperUnit (lowerUnit u) = false := by
  rw [lowerUnit]
  split
  next h =>
    simp only [isUpperUnit, decide_eq_true_eq, decide_eq_false_iff_not, UInt16.le_iff_toNat_le,
      UInt16.toNat_add, UInt16.reduceToNat] at h ⊢
    omega
  next h => simpa using h

theorem map_lowerUnit_eq_self_iff {s : CodeUnits} :
    s.map lowerUnit = s ↔ ∀ u ∈ s, isUpperUnit u = false := by
  induction s with
  | nil => simp
  | cons u s ih =>
    rw [List.map_cons, List.cons_eq_cons, lowerUnit_eq_self_iff, ih, List.forall_mem_cons]

/-- Lower-casing of ASCII text. -/
theorem isLowerCasing_map : IsLowerCasing (List.map lowerUnit) where
  idempotent s := by
    refine map_lowerUnit_eq_self_iff.mpr fun u hu ↦ ?_
    obtain ⟨v, -, rfl⟩ := List.mem_map.mp hu
    exact isUpperUnit_lowerUnit v
  ascii s h := map_lowerUnit_eq_self_iff.mpr fun u hu ↦ (h u hu).2
  append s u t hu := by
    have hupper : isUpperUnit u = false := by
      obtain rfl | hspace := hu
      · rfl
      · simp only [isUpperUnit, isSpaceUnit, Bool.or_eq_true, decide_eq_true_eq,
          decide_eq_false_iff_not, beq_iff_eq, UInt16.le_iff_toNat_le, ← UInt16.toNat_inj,
          UInt16.reduceToNat] at hspace ⊢
        omega
    simp only [map_lowerUnit_eq_self_iff, List.forall_mem_append, List.forall_mem_cons, hupper,
      true_and]

/-- A rule for the key `+`, with a condition of two names. -/
def splitRule : KeybindingRule Unit :=
  ⟨unitsOf "mod+shift++", (), some (unitsOf "terminalOpen && !terminalFocus")⟩

/-- What the rule resolves to. -/
def splitResolved : ResolvedKeybindingRule Unit :=
  ⟨(), ⟨unitsOf "+", false, false, true, false, true⟩,
    some (.and (.identifier (unitsOf "terminalOpen"))
      (.not (.identifier (unitsOf "terminalFocus"))))⟩

theorem survivesEncode_splitResolved : splitResolved.SurvivesEncode (List.map lowerUnit) :=
  (survivesEncode_iff isLowerCasing_map
    (show compileResolvedKeybindingRule _ splitRule = _ by decide +kernel)).mpr
    ⟨by decide, by decide⟩

/-- Forty negations of forty negations, which the parser reads. -/
def nestedRule : KeybindingRule Unit :=
  ⟨unitsOf "mod+d", (), some (List.replicate 40 0x21 ++ unitsOf "(" ++ List.replicate 40 0x21 ++
    unitsOf "a)")⟩

/-- What the rule resolves to. -/
def nestedResolved : ResolvedKeybindingRule Unit :=
  ⟨(), ⟨unitsOf "d", false, false, false, false, true⟩,
    some ((KeybindingWhenNode.identifier (unitsOf "a")).negated 80)⟩

/-- **A rule does not survive**: its condition is written in eighty parentheses, which are too deep
for the parser. -/
theorem not_survivesEncode_nestedResolved :
    compileResolvedKeybindingRule (List.map lowerUnit) nestedRule = some nestedResolved ∧
      ¬nestedResolved.SurvivesEncode (List.map lowerUnit) := by
  refine ⟨by decide +kernel, fun ⟨config, hconfig, hdecode⟩ ↦ ?_⟩
  have hfails : (encode nestedResolved).bind (decode (List.map lowerUnit)) = none := by
    decide +kernel
  rw [hconfig, Option.bind_some, hdecode] at hfails
  exact nomatch hfails

end Examples

end Awen.Keybindings
