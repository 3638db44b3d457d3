import Mathlib.Data.List.Infix

/-!
# Chains of operands and a left-associative operator

A reader takes the beginning of a list of tokens for a tree and leaves the rest. `Reads` says that
it takes exactly what a grammar generates: what it has taken is generated, and what is generated is
taken in front of every rest that may follow. `chain` reads operands with an operator between them
and combines them from the left, and `Reads.chain` says that it reads `LeftChain`, the rule `chain
:= operand | chain op operand`.
-/

namespace Awen

variable {τ ν : Type*}

/-- A reader of the beginning of a list of tokens. -/
abbrev TokenReader (τ ν : Type*) := List τ → Option (ν × List τ)

/-- What a grammar rule generates, with its tree. -/
abbrev TokenRule (τ ν : Type*) := List τ → ν → Prop

/-- A reader takes what a rule generates, in front of a rest that may follow. -/
structure TokenReader.Reads (reader : TokenReader τ ν) (rule : TokenRule τ ν)
    (Follows : List τ → Prop) : Prop where
  sound : ∀ {tokens node rest}, reader tokens = some (node, rest) →
    ∃ used, tokens = used ++ rest ∧ rule used node
  complete : ∀ {used node rest}, rule used node → Follows rest →
    reader (used ++ rest) = some (node, rest)

/-- Operands with an operator between them, the operator from the left. -/
inductive LeftChain (operand : TokenRule τ ν) (op : τ) (combine : ν → ν → ν) : TokenRule τ ν
  | one {tokens : List τ} {node : ν} : operand tokens node →
      LeftChain operand op combine tokens node
  | snoc {tokens more : List τ} {left right : ν} : LeftChain operand op combine tokens left →
      operand more right →
      LeftChain operand op combine (tokens ++ op :: more) (combine left right)

/-- What the operands have and combining keeps, chains have. -/
theorem LeftChain.closed {operand : TokenRule τ ν} {op : τ} {combine : ν → ν → ν}
    {P : TokenRule τ ν}
    (hone : ∀ {tokens node}, operand tokens node → P tokens node)
    (hsnoc : ∀ {tokens more left right}, P tokens left → P more right →
      P (tokens ++ op :: more) (combine left right))
    {tokens : List τ} {node : ν} (h : LeftChain operand op combine tokens node) :
    P tokens node := by
  induction h with
  | one hoperand => exact hone hoperand
  | snoc _ hoperand ih => exact hsnoc ih (hone hoperand)

namespace TokenReader

variable [DecidableEq τ] (operand : TokenReader τ ν) (op : τ) (combine : ν → ν → ν)

/-- Read on while the operator comes. Every turn takes a token, so that as many turns as there are
tokens are enough. -/
def chainFrom : ℕ → ν → List τ → Option (ν × List τ)
  | 0, left, tokens => some (left, tokens)
  | _ + 1, left, [] => some (left, [])
  | fuel + 1, left, token :: tokens =>
    if token = op then
      match operand tokens with
      | none => none
      | some (right, rest) => chainFrom fuel (combine left right) rest
    else some (left, token :: tokens)

-- makes the equations once for all proofs
attribute [local simp] chainFrom

/-- One operand, and then as many as come. -/
def chain : TokenReader τ ν := fun tokens ↦
  match operand tokens with
  | none => none
  | some (left, rest) => operand.chainFrom op combine rest.length left rest

variable {operand op combine} {rule : TokenRule τ ν} {Follows : List τ → Prop}

omit [DecidableEq τ] in
theorem Reads.length_le {reader : TokenReader τ ν} (h : reader.Reads rule Follows)
    {tokens rest : List τ} {node : ν} (hread : reader tokens = some (node, rest)) :
    rest.length ≤ tokens.length := by
  obtain ⟨used, rfl, -⟩ := h.sound hread
  rw [List.length_append]
  omega

/-- Turns that are enough. -/
theorem Reads.chainFrom_eq (h : operand.Reads rule Follows) {fuel : ℕ} {left : ν} {tokens : List τ}
    (hfuel : tokens.length ≤ fuel) :
    operand.chainFrom op combine fuel left tokens =
      operand.chainFrom op combine tokens.length left tokens := by
  suffices hall : ∀ m n left (tokens : List τ), tokens.length ≤ m → tokens.length ≤ n →
      operand.chainFrom op combine m left tokens = operand.chainFrom op combine n left tokens from
    hall _ _ left tokens hfuel (Nat.le_refl _)
  intro m
  induction m with
  | zero =>
    intro n left tokens hm _
    obtain rfl := List.eq_nil_of_length_eq_zero (Nat.le_zero.mp hm)
    cases n <;> rfl
  | succ m ih =>
    intro n left tokens hm hn
    cases tokens with
    | nil => cases n <;> rfl
    | cons token tokens =>
      rw [List.length_cons] at hm hn
      obtain ⟨n, rfl⟩ := Nat.exists_eq_add_one.mpr (Nat.lt_of_lt_of_le (Nat.succ_pos _) hn)
      rw [chainFrom, chainFrom]
      split
      · cases hread : operand tokens with
        | none => rfl
        | some found =>
          have hle := h.length_le hread
          exact ih n _ found.2 (by omega) (by omega)
      · rfl

/-- What is read on extends the chain, and no operator is left. -/
theorem Reads.chainFrom_sound (h : operand.Reads rule Follows) {fuel : ℕ} {left node : ν}
    {before tokens rest : List τ} (hbefore : LeftChain rule op combine before left)
    (hread : operand.chainFrom op combine fuel left tokens = some (node, rest)) :
    ∃ used, tokens = used ++ rest ∧ LeftChain rule op combine (before ++ used) node := by
  induction fuel generalizing left before tokens with
  | zero =>
    obtain ⟨rfl, rfl⟩ := Prod.mk.inj (Option.some.inj hread)
    exact ⟨[], rfl, by rwa [List.append_nil]⟩
  | succ fuel ih =>
    cases tokens with
    | nil =>
      obtain ⟨rfl, rfl⟩ := Prod.mk.inj (Option.some.inj hread)
      exact ⟨[], rfl, by rwa [List.append_nil]⟩
    | cons token tokens =>
      rw [chainFrom] at hread
      split at hread
      next hop =>
        cases hoperand : operand tokens with
        | none =>
          rw [hoperand] at hread
          exact nomatch hread
        | some found =>
          obtain ⟨right, found⟩ := found
          rw [hoperand] at hread
          obtain ⟨more, rfl, hmore⟩ := h.sound hoperand
          obtain ⟨used, rfl, hused⟩ := ih (hbefore.snoc hmore) hread
          refine ⟨op :: more ++ used, by rw [hop]; simp, ?_⟩
          rwa [List.append_assoc] at hused
      next hop =>
        obtain ⟨rfl, rfl⟩ := Prod.mk.inj (Option.some.inj hread)
        exact ⟨[], rfl, by rwa [List.append_nil]⟩

/-- A chain is read as far as it goes, and then the reader reads on. -/
theorem Reads.chain_append (h : operand.Reads rule Follows) (hop : ∀ tokens, Follows (op :: tokens))
    {used rest : List τ} {node : ν} (hused : LeftChain rule op combine used node)
    (hrest : Follows rest) :
    operand.chain op combine (used ++ rest) =
      operand.chainFrom op combine rest.length node rest := by
  induction hused generalizing rest with
  | one hoperand => rw [chain, h.complete hoperand hrest]
  | snoc hchain hoperand ih =>
    rw [List.append_assoc, List.cons_append, ih (hop _), List.length_cons, chainFrom, if_pos rfl,
      h.complete hoperand hrest]
    exact h.chainFrom_eq (by rw [List.length_append]; omega)

/-- **The chain reader reads chains**, in front of what may follow an operand and is no operator. -/
theorem Reads.chain (h : operand.Reads rule Follows) (hop : ∀ tokens, Follows (op :: tokens)) :
    (operand.chain op combine).Reads (LeftChain rule op combine)
      fun rest ↦ Follows rest ∧ rest.head? ≠ some op where
  sound := by
    intro tokens node rest hread
    rw [TokenReader.chain] at hread
    split at hread
    · exact nomatch hread
    next left found hoperand =>
      obtain ⟨first, rfl, hfirst⟩ := h.sound hoperand
      obtain ⟨used, rfl, hused⟩ := h.chainFrom_sound (.one hfirst) hread
      exact ⟨first ++ used, (List.append_assoc ..).symm, hused⟩
  complete := by
    rintro used node rest hused ⟨hrest, hhead⟩
    rw [h.chain_append hop hused hrest]
    cases rest with
    | nil => rfl
    | cons token rest =>
      rw [List.length_cons, chainFrom, if_neg fun heq ↦ hhead (congrArg some heq)]

end TokenReader

end Awen
