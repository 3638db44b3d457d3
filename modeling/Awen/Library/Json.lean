import Mathlib.Algebra.Order.Field.Rat
import Mathlib.Data.List.Basic
import Mathlib.Data.Option.Basic

/-!
# JSON values

The values of a JSON text, with exact numbers, and what a reader asks of them: the field of an
object, a string, a list. An object is written with `object`, which leaves out the fields that have
no value; `field_object` reads it back.
-/

namespace Awen

inductive Json
  | null
  | bool (value : Bool)
  | num (value : ℚ)
  | str (value : String)
  | arr (items : List Json)
  | obj (fields : List (String × Json))

namespace Json

/-- The value of a field; `none` where there is no such field, or no object. -/
def field (key : String) : Json → Option Json
  | .obj fields => fields.lookup key
  | _ => none

def string? : Json → Option String
  | .str value => some value
  | _ => none

def number? : Json → Option ℚ
  | .num value => some value
  | _ => none

def array? : Json → Option (List Json)
  | .arr items => some items
  | _ => none

@[simp] theorem string?_str (value : String) : (Json.str value).string? = some value := rfl

@[simp] theorem number?_num (value : ℚ) : (Json.num value).number? = some value := rfl

@[simp] theorem array?_arr (items : List Json) : (Json.arr items).array? = some items := rfl

/-- A field that may be absent, but is a string where it is present. -/
def optionalString (key : String) (value : Json) : Option (Option String) :=
  match value.field key with
  | none => some none
  | some (.str s) => some (some s)
  | some _ => none

/-- The object with the given fields, of which those without a value are left out. -/
def object (fields : List (String × Option Json)) : Json :=
  .obj (fields.filterMap fun f ↦ f.2.map (f.1, ·))

private theorem lookup_filterMap (key : String) (fields : List (String × Option Json))
    (h : (fields.map Prod.fst).Nodup) :
    (fields.filterMap fun f ↦ f.2.map (f.1, ·)).lookup key = (fields.lookup key).join := by
  induction fields with
  | nil => rfl
  | cons f fields ih =>
    obtain ⟨k, value⟩ := f
    obtain ⟨hk, hnd⟩ := List.nodup_cons.mp h
    cases value with
    | some value =>
      simp only [List.filterMap_cons, Option.map_some, List.lookup_cons, ih hnd]
      split <;> rfl
    | none =>
      simp only [List.filterMap_cons, Option.map_none, List.lookup_cons, ih hnd]
      split
      · rename_i heq
        -- the key of a field without a value is the key of no other field
        have hnone : fields.lookup key = none := List.lookup_eq_none_iff.mpr fun f hf ↦ by
          have hmem : f.1 ∈ fields.map Prod.fst := List.mem_map_of_mem hf
          rw [eq_of_beq heq, bne_iff_ne]
          rintro rfl
          exact hk hmem
        rw [hnone]
        rfl
      · rfl

/-- The fields of an object are read back. -/
theorem field_object {fields : List (String × Option Json)} (h : (fields.map Prod.fst).Nodup)
    (key : String) : (object fields).field key = (fields.lookup key).join :=
  lookup_filterMap key fields h

end Json

end Awen
