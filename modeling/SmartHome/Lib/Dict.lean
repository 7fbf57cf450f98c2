/-
  Reading and changing JSON objects the way a program with dictionaries does, and values that have
  a canonical text.
-/
import SmartHome.Lib.Json

namespace Verif

/-- `value.get(key)` -/
def item (value : Json) (key : String) : Json := (value.get? key).getD .null

/-- `isinstance(value, dict)` -/
def isDict (value : Json) : Prop := ∃ ks, value.keys = some ks

instance (value : Json) : Decidable (isDict value) :=
  decidable_of_iff (value.keys.isSome) (by simp [isDict, Option.isSome_iff_exists])

/-- `set(value) == keys` -/
def hasKeys (value : Json) (keys : List String) : Prop :=
  ∃ ks ∈ value.keys, (∀ k ∈ ks, k ∈ keys) ∧ ∀ k ∈ keys, k ∈ ks

instance (value : Json) (keys : List String) : Decidable (hasKeys value keys) := by
  unfold hasKeys; infer_instance

/-- `isinstance(value, str)` -/
def text? : Json → Option String
  | .str s => some s
  | _ => none

/-- A text for which `check` holds. -/
def textWhere (check : String → Bool) (value : Json) : Option String := (text? value).filter check

theorem textWhere_eq_some {check : String → Bool} {value : Json} {s : String} :
    textWhere check value = some s ↔ value = .str s ∧ check s = true := by
  cases value with
  | str t =>
    simp only [textWhere, text?, Option.filter_eq_some_iff, Option.some.injEq, Json.str.injEq]
  | _ => simp [textWhere, text?]

/-- `{**value, ...}`: members are replaced in place, or appended. -/
def update (value : Json) (changes : List (String × Json)) : Json :=
  match value with
  | .obj kvs => .obj (changes.foldl (fun kvs c =>
      if kvs.any (·.1 = c.1) then kvs.map (fun m => if m.1 = c.1 then c else m) else kvs ++ [c]) kvs)
  | other => other

/-- Values with a canonical text: a digest of the text, and its length. -/
class Canonical (α : Type) where
  digest : α → String
  size : α → ℕ

export Canonical (digest size)

end Verif
