/-
  The values of `json.loads` in Python: their equality, and their canonical text.

  Equality takes `True`, `1` and `1.0` for one value and does not look at the order of members;
  the canonical text (`json.dumps` with `sort_keys`) tells the three apart.

  * `PyValue.raw_inj`: the canonical text determines the canonical value;
  * `PyValue.canon_dict`, `PyValue.eqv_dict`: both are decided member by member;
  * `PyValue.eqv_of_canon`: values with one canonical text are equal.
-/
import Mathlib.Algebra.Order.Ring.Rat
import Mathlib.Data.Bool.AllAny
import Mathlib.Data.List.Perm.Subperm
import Mathlib.Data.List.Sort
import SmartHome.Lib.Json
import SmartHome.Lib.Table

namespace Verif

open Json (quote decimal escape Stops)

/-! ## Values -/

/-- A finite float. -/
inductive PyFloat where
  | negZero
  | of (q : ℚ)
  deriving DecidableEq

def PyFloat.value : PyFloat → ℚ
  | negZero => 0
  | of q => q

/-- The text of a float (`float.__repr__`), which is read back as the same float. -/
class FloatText where
  text : PyFloat → List Char
  injective : Function.Injective text
  /-- It starts like a number, -/
  head : ∀ x, ∃ c cs, text x = c :: cs ∧ (c = '-' ∨ c.isDigit)
  /-- has no other characters, -/
  chars : ∀ x, ∀ c ∈ text x, c.isDigit ∨ c ∈ ['-', '+', '.', 'e']
  /-- and is no text of an integer. -/
  point : ∀ x, '.' ∈ text x ∨ 'e' ∈ text x

inductive PyValue where
  | null
  | bool (b : Bool)
  | int (n : ℤ)
  | float (x : PyFloat)
  | str (s : String)
  | list (xs : List PyValue)
  | dict (kvs : List (String × PyValue))
  deriving Inhabited

namespace PyValue

/-- The member of a dictionary. -/
def getKey (k : String) (kvs : List (String × PyValue)) : Option PyValue :=
  (lookup Prod.fst k kvs).map Prod.snd

/-- The number that a value stands for. -/
def number? : PyValue → Option ℚ
  | bool b => some (if b then 1 else 0)
  | int n => some n
  | float x => some x.value
  | _ => none

mutual
/-- `v == w` -/
def eqv : PyValue → PyValue → Bool
  | null, null => true
  | str s, str t => s = t
  | list xs, list ys => eqvElems xs ys
  | dict kvs, dict kvs' => kvs.length = kvs'.length && eqvMembers kvs kvs'
  | bool b, w => w.number? = some (if b then 1 else 0)
  | int n, w => w.number? = some (n : ℚ)
  | float x, w => w.number? = some x.value
  | _, _ => false

def eqvElems : List PyValue → List PyValue → Bool
  | [], [] => true
  | x :: xs, y :: ys => eqv x y && eqvElems xs ys
  | _, _ => false

def eqvMembers : List (String × PyValue) → List (String × PyValue) → Bool
  | [], _ => true
  | (k, v) :: kvs, kvs' =>
    (match getKey k kvs' with
      | some w => eqv v w
      | none => false) && eqvMembers kvs kvs'
end

mutual
/-- The keys of a dictionary are different. -/
def Distinct : PyValue → Prop
  | list xs => DistinctElems xs
  | dict kvs => (kvs.map Prod.fst).Nodup ∧ DistinctMembers kvs
  | _ => True

def DistinctElems : List PyValue → Prop
  | [] => True
  | x :: xs => x.Distinct ∧ DistinctElems xs

def DistinctMembers : List (String × PyValue) → Prop
  | [] => True
  | (_, v) :: kvs => v.Distinct ∧ DistinctMembers kvs
end

/-! ## Canonical texts -/

/-- Members by key. -/
def byKey (a b : String × PyValue) : Prop := a.1 ≤ b.1

instance : DecidableRel byKey := fun a b => inferInstanceAs (Decidable (a.1 ≤ b.1))

instance : IsTrans (String × PyValue) byKey := ⟨fun _ _ _ => String.le_trans⟩

instance : Std.Total byKey := ⟨fun a b => String.le_total a.1 b.1⟩

mutual
/-- The value with the members of all dictionaries in order. -/
def canon : PyValue → PyValue
  | list xs => list (canonElems xs)
  | dict kvs => dict ((canonMembers kvs).insertionSort byKey)
  | v => v

def canonElems : List PyValue → List PyValue
  | [] => []
  | x :: xs => x.canon :: canonElems xs

def canonMembers : List (String × PyValue) → List (String × PyValue)
  | [] => []
  | (k, v) :: kvs => (k, v.canon) :: canonMembers kvs
end

/-- The text of an integer. -/
def intText (n : ℤ) : List Char := if n < 0 then '-' :: decimal n.natAbs else decimal n.natAbs

section
variable [FloatText]

mutual
/-- The compact text of a value. -/
def render : PyValue → List Char
  | null => ['n', 'u', 'l', 'l']
  | bool true => ['t', 'r', 'u', 'e']
  | bool false => ['f', 'a', 'l', 's', 'e']
  | int n => intText n
  | float x => FloatText.text x
  | str s => quote s
  | list [] => ['[', ']']
  | list (x :: xs) => '[' :: (x.render ++ (renderElems xs ++ [']']))
  | dict [] => ['{', '}']
  | dict ((k, v) :: kvs) => '{' :: (quote k ++ ':' :: (v.render ++ (renderMembers kvs ++ ['}'])))

/-- The elements after the first one. -/
def renderElems : List PyValue → List Char
  | [] => []
  | x :: xs => ',' :: (x.render ++ renderElems xs)

def renderMembers : List (String × PyValue) → List Char
  | [] => []
  | (k, v) :: kvs => ',' :: (quote k ++ ':' :: (v.render ++ renderMembers kvs))
end

/-- `json.dumps(value, sort_keys=True, ensure_ascii=False, separators=(',', ':'))` -/
def raw (v : PyValue) : List Char := v.canon.render

end

/-! ## Members -/

section
variable {k : String} {v w : PyValue} {kvs kvs' : List (String × PyValue)} {xs ys : List PyValue}

theorem mem_of_getKey (h : getKey k kvs = some v) : (k, v) ∈ kvs := by
  obtain ⟨⟨k', v'⟩, hm, rfl⟩ := Option.map_eq_some_iff.1 h
  obtain ⟨hmem, rfl⟩ := lookup_eq_some hm
  exact hmem

theorem getKey_of_mem (hn : (kvs.map Prod.fst).Nodup) (h : (k, v) ∈ kvs) : getKey k kvs = some v := by
  rw [getKey, (lookup_eq_some_iff hn).2 ⟨h, rfl⟩]
  rfl

theorem getKey_eq_none : getKey k kvs = none ↔ k ∉ kvs.map Prod.fst := by
  rw [getKey, Option.map_eq_none_iff, lookup_eq_none, List.mem_map]
  constructor
  · rintro h ⟨m, hm, rfl⟩
    exact h m hm rfl
  · exact fun h m hm hk => h ⟨m, hm, hk⟩

theorem distinctMembers_iff : DistinctMembers kvs ↔ ∀ m ∈ kvs, m.2.Distinct := by
  induction kvs with
  | nil => simp [DistinctMembers]
  | cons m kvs ih => simp [DistinctMembers, ih]

theorem distinctElems_iff : DistinctElems xs ↔ ∀ x ∈ xs, x.Distinct := by
  induction xs with
  | nil => simp [DistinctElems]
  | cons x xs ih => simp [DistinctElems, ih]

theorem distinct_bool {b : Bool} : (bool b).Distinct := by simp [Distinct]

theorem Distinct.getKey (h : (dict kvs).Distinct) (hv : getKey k kvs = some v) : v.Distinct := by
  rw [Distinct] at h
  exact distinctMembers_iff.1 h.2 (k, v) (mem_of_getKey hv)

theorem canonMembers_eq : canonMembers kvs = kvs.map fun m => (m.1, m.2.canon) := by
  induction kvs with
  | nil => rfl
  | cons m kvs ih => rw [canonMembers, ih, List.map_cons]

theorem canonElems_eq : canonElems xs = xs.map canon := by
  induction xs with
  | nil => rfl
  | cons x xs ih => rw [canonElems, ih, List.map_cons]

theorem eqvMembers_iff : eqvMembers kvs kvs' = true ↔
    ∀ m ∈ kvs, ∃ w, getKey m.1 kvs' = some w ∧ eqv m.2 w = true := by
  induction kvs with
  | nil => simp [eqvMembers]
  | cons m kvs ih =>
    rw [eqvMembers, Bool.and_eq_true, ih, List.forall_mem_cons]
    refine and_congr_left fun _ => ?_
    cases getKey m.1 kvs' <;> simp

end

/-! ## Reading a text back -/

section
variable {r r' : List Char}

theorem quote_append {s t : String} (h : quote s ++ r = quote t ++ r') : s = t ∧ r = r' := by
  have hread : ∀ (s : String) (r : List Char), Json.parseStr ((quote s ++ r).tail) = some (s, r) := by
    intro s r
    rw [quote, List.cons_append, List.tail_cons, List.append_assoc]
    exact Json.parseStr_quote s r
  have hboth := hread s r
  rw [h, hread t r', Option.some_inj, Prod.mk.injEq] at hboth
  exact ⟨hboth.1.symm, hboth.2.symm⟩

/-- The characters of a number. -/
def Numeric (c : Char) : Prop := c.isDigit ∨ c ∈ ['-', '+', '.', 'e']

theorem Stops.not_numeric (h : Stops r) : ∀ c ∈ r.head?, ¬Numeric c := by
  intro c hc
  rcases h c hc with rfl | rfl | rfl <;> simp [Numeric]

/-- A text is split where its characters stop to be of one kind. -/
theorem span_append {p : Char → Prop} {s t : List Char} (hs : ∀ c ∈ s, p c) (ht : ∀ c ∈ t, p c)
    (hr : ∀ c ∈ r.head?, ¬p c) (hr' : ∀ c ∈ r'.head?, ¬p c) (h : s ++ r = t ++ r') : s = t ∧ r = r' := by
  induction s generalizing t with
  | nil =>
    cases t with
    | nil => exact ⟨rfl, h⟩
    | cons d t =>
      rw [List.nil_append, List.cons_append] at h
      exact absurd (ht d List.mem_cons_self) (hr d (by rw [h]; rfl))
  | cons c s ih =>
    cases t with
    | nil =>
      rw [List.nil_append, List.cons_append] at h
      exact absurd (hs c List.mem_cons_self) (hr' c (by rw [← h]; rfl))
    | cons d t =>
      rw [List.cons_append, List.cons_append, List.cons.injEq] at h
      obtain ⟨rfl, h⟩ := h
      obtain ⟨rfl, hrest⟩ := ih (fun x hx => hs x (List.mem_cons_of_mem _ hx))
        (fun x hx => ht x (List.mem_cons_of_mem _ hx)) h
      exact ⟨rfl, hrest⟩

theorem intText_head (n : ℤ) : ∃ c cs, intText n = c :: cs ∧ (c = '-' ∨ c.isDigit) := by
  unfold intText
  split_ifs
  · exact ⟨_, _, rfl, Or.inl rfl⟩
  · obtain ⟨d, ds, hd⟩ := List.exists_cons_of_ne_nil (Json.decimal_ne_nil n.natAbs)
    exact ⟨d, ds, hd, Or.inr (Json.decimal_isDigit d (by rw [hd]; exact List.mem_cons_self))⟩

theorem intText_chars {n : ℤ} {c : Char} (h : c ∈ intText n) : c = '-' ∨ c.isDigit := by
  unfold intText at h
  split_ifs at h
  · rcases List.mem_cons.1 h with h | h
    · exact Or.inl h
    · exact Or.inr (Json.decimal_isDigit c h)
  · exact Or.inr (Json.decimal_isDigit c h)

theorem intText_injective : Function.Injective intText := by
  intro n m h
  have hminus : ∀ {k : ℕ}, '-' ∉ decimal k := fun hk => absurd (Json.decimal_isDigit _ hk) (by decide)
  unfold intText at h
  split_ifs at h with hn hm hm
  · have habs := Json.decimal_injective (List.cons.inj h).2
    omega
  · exact absurd (h ▸ List.mem_cons_self) hminus
  · exact absurd (h.symm ▸ List.mem_cons_self) hminus
  · have habs := Json.decimal_injective h
    omega

theorem not_point_int {n : ℤ} {c : Char} (hc : c = '.' ∨ c = 'e') : c ∉ intText n := by
  intro h
  rcases intText_chars h with h | h <;> rcases hc with rfl | rfl <;> exact absurd h (by decide)

variable [FloatText]

/-- The text of a number. -/
def numberText : PyValue → Option (List Char)
  | int n => some (intText n)
  | float x => some (FloatText.text x)
  | _ => none

theorem numberText_numeric {v : PyValue} {s : List Char} (h : v.numberText = some s) : ∀ c ∈ s, Numeric c := by
  cases v with
  | int n =>
    obtain rfl := Option.some.inj h
    intro c hc
    rcases intText_chars hc with rfl | hc
    · exact Or.inr (by simp)
    · exact Or.inl hc
  | float x =>
    obtain rfl := Option.some.inj h
    exact FloatText.chars x
  | _ => cases h

theorem numberText_head {v : PyValue} {s : List Char} (h : v.numberText = some s) :
    ∃ c cs, s = c :: cs ∧ (c = '-' ∨ c.isDigit) := by
  cases v with
  | int n =>
    obtain rfl := Option.some.inj h
    exact intText_head n
  | float x =>
    obtain rfl := Option.some.inj h
    exact FloatText.head x
  | _ => cases h

theorem numberText_injective {v w : PyValue} {s : List Char} (hv : v.numberText = some s)
    (hw : w.numberText = some s) : v = w := by
  have hfloat : ∀ {n : ℤ} {x : PyFloat}, (int n).numberText = some s → (float x).numberText = some s → False := by
    intro n x hn hx
    have hsame := Option.some.inj (hn.trans hx.symm)
    rcases FloatText.point x with hpoint | hpoint
    · exact not_point_int (Or.inl rfl) (hsame ▸ hpoint)
    · exact not_point_int (Or.inr rfl) (hsame ▸ hpoint)
  cases v with
  | int n =>
    cases w with
    | int m => rw [intText_injective (Option.some.inj (hv.trans hw.symm))]
    | float x => exact (hfloat hv hw).elim
    | _ => cases hw
  | float x =>
    cases w with
    | int m => exact (hfloat hw hv).elim
    | float y => rw [FloatText.injective (Option.some.inj (hv.trans hw.symm))]
    | _ => cases hw
  | _ => cases hv

/-- What a value starts with. -/
def kind : PyValue → Option Char
  | null => some 'n'
  | bool true => some 't'
  | bool false => some 'f'
  | str _ => some '"'
  | list _ => some '['
  | dict _ => some '{'
  | _ => none

theorem render_kind (v : PyValue) :
    (∃ c cs, v.kind = some c ∧ v.render = c :: cs ∧ ¬(c = '-' ∨ c.isDigit)) ∨
      v.kind = none ∧ v.numberText = some v.render := by
  cases v with
  | bool b => cases b <;> exact Or.inl ⟨_, _, rfl, rfl, by decide⟩
  | int n => exact Or.inr ⟨rfl, rfl⟩
  | float x => exact Or.inr ⟨rfl, rfl⟩
  | list xs => cases xs <;> exact Or.inl ⟨_, _, rfl, rfl, by decide⟩
  | dict kvs => cases kvs <;> exact Or.inl ⟨_, _, rfl, rfl, by decide⟩
  | _ => exact Or.inl ⟨_, _, rfl, rfl, by decide⟩

/-- Texts with one first character are texts of values of one kind. -/
theorem kind_eq {v w : PyValue} (h : v.render ++ r = w.render ++ r') : v.kind = w.kind := by
  rcases render_kind v with ⟨c, cs, hc, hv, hnot⟩ | ⟨hc, hv⟩ <;>
    rcases render_kind w with ⟨d, ds, hd, hw, hnot'⟩ | ⟨hd, hw⟩
  · rw [hv, hw] at h
    rw [hc, hd, (List.cons.inj h).1]
  · obtain ⟨d, ds, hd', hnumber⟩ := numberText_head hw
    rw [hv, hd'] at h
    exact absurd ((List.cons.inj h).1 ▸ hnumber) hnot
  · obtain ⟨d, ds, hd', hnumber⟩ := numberText_head hv
    rw [hw, hd'] at h
    exact absurd ((List.cons.inj h).1 ▸ hnumber) hnot'
  · rw [hc, hd]

theorem number_append {v w : PyValue} (hr : Stops r) (hr' : Stops r') (hv : v.numberText = some v.render)
    (hw : w.numberText = some w.render) (h : v.render ++ r = w.render ++ r') : v = w ∧ r = r' := by
  obtain ⟨hsame, hrest⟩ := span_append (numberText_numeric hv) (numberText_numeric hw)
    (Stops.not_numeric hr) (Stops.not_numeric hr') h
  exact ⟨numberText_injective hv (hsame ▸ hw), hrest⟩

theorem stops_elems {xs : List PyValue} : Stops (renderElems xs ++ ']' :: r) := by
  cases xs with
  | nil => exact Json.stops_cons (Or.inr (Or.inl rfl))
  | cons x xs => exact Json.stops_cons (Or.inl rfl)

theorem stops_members {kvs : List (String × PyValue)} : Stops (renderMembers kvs ++ '}' :: r) := by
  cases kvs with
  | nil => exact Json.stops_cons (Or.inr (Or.inr rfl))
  | cons m kvs => exact Json.stops_cons (Or.inl rfl)

/-- A value by what it starts with. -/
theorem of_kind (w : PyValue) : (w.kind = some 'n' ∧ w = null) ∨ (∃ b, w.kind = (bool b).kind ∧ w = bool b) ∨
    (w.kind = none ∧ w.numberText = some w.render) ∨ (∃ s, w.kind = some '"' ∧ w = str s) ∨
    (∃ xs, w.kind = some '[' ∧ w = list xs) ∨ ∃ kvs, w.kind = some '{' ∧ w = dict kvs := by
  cases w with
  | null => exact Or.inl ⟨rfl, rfl⟩
  | bool b => exact Or.inr (Or.inl ⟨b, rfl, rfl⟩)
  | int n => exact Or.inr (Or.inr (Or.inl ⟨rfl, rfl⟩))
  | float x => exact Or.inr (Or.inr (Or.inl ⟨rfl, rfl⟩))
  | str s => exact Or.inr (Or.inr (Or.inr (Or.inl ⟨s, rfl, rfl⟩)))
  | list xs => exact Or.inr (Or.inr (Or.inr (Or.inr (Or.inl ⟨xs, rfl, rfl⟩))))
  | dict kvs => exact Or.inr (Or.inr (Or.inr (Or.inr (Or.inr ⟨kvs, rfl, rfl⟩))))

/-- The value of a scalar that starts like another one. -/
theorem scalar_eq {v w : PyValue} (hv : v = null ∨ ∃ b, v = bool b) (h : v.kind = w.kind) : v = w := by
  have hv' : v = null ∨ v = bool true ∨ v = bool false := by
    rcases hv with rfl | ⟨b, rfl⟩
    · exact Or.inl rfl
    · cases b
      · exact Or.inr (Or.inr rfl)
      · exact Or.inr (Or.inl rfl)
  rcases of_kind w with ⟨hw, rfl⟩ | ⟨b, hw, rfl⟩ | ⟨hw, -⟩ | ⟨s, hw, rfl⟩ | ⟨xs, hw, rfl⟩ | ⟨kvs, hw, rfl⟩
  case inr.inl =>
    rcases hv' with rfl | rfl | rfl <;> cases b <;> first | rfl | exact absurd h (by decide)
  all_goals
    rw [hw] at h
    rcases hv' with rfl | rfl | rfl <;> first | rfl | exact absurd h (by decide)

omit [FloatText] in
theorem list_of_kind {w : PyValue} (h : some '[' = w.kind) : ∃ xs, w = list xs := by
  cases w with
  | list xs => exact ⟨xs, rfl⟩
  | bool b => cases b <;> exact absurd h (by decide)
  | _ => exact absurd h (by simp [kind])

omit [FloatText] in
theorem dict_of_kind {w : PyValue} (h : some '{' = w.kind) : ∃ kvs, w = dict kvs := by
  cases w with
  | dict kvs => exact ⟨kvs, rfl⟩
  | bool b => cases b <;> exact absurd h (by decide)
  | _ => exact absurd h (by simp [kind])

omit [FloatText] in
theorem str_of_kind {w : PyValue} (h : some '"' = w.kind) : ∃ s, w = str s := by
  cases w with
  | str s => exact ⟨s, rfl⟩
  | bool b => cases b <;> exact absurd h (by decide)
  | _ => exact absurd h (by simp [kind])

theorem number_of_kind {w : PyValue} (h : none = w.kind) : w.numberText = some w.render := by
  rcases render_kind w with ⟨c, -, hc, -⟩ | ⟨-, hw⟩
  · rw [hc] at h
    cases h
  · exact hw

/-- No value starts with a bracket that closes a list. -/
theorem not_close {v : PyValue} (h : v.render ++ r = ']' :: r') : False := by
  rcases render_kind v with ⟨c, cs, hc, hv, -⟩ | ⟨-, hv⟩
  · rw [hv, List.cons_append, List.cons.injEq] at h
    obtain ⟨rfl, -⟩ := h
    cases v with
    | bool b => cases b <;> exact absurd hc (by decide)
    | _ => exact absurd hc (by simp [kind])
  · obtain ⟨c, cs, hcs, hhead⟩ := numberText_head hv
    rw [hcs, List.cons_append, List.cons.injEq] at h
    rcases hhead with hhead | hhead
    · exact absurd (h.1.symm.trans hhead) (by decide)
    · exact absurd (h.1 ▸ hhead) (by decide)

mutual
/-- **A text determines its value**, by recursion on the value. -/
theorem render_append : ∀ (v w : PyValue) {r r' : List Char}, Stops r → Stops r' →
    v.render ++ r = w.render ++ r' → v = w ∧ r = r'
  | null, w, r, r', _, _, h => by
    obtain rfl := scalar_eq (Or.inl rfl) (kind_eq h)
    exact ⟨rfl, List.append_cancel_left h⟩
  | bool b, w, r, r', _, _, h => by
    obtain rfl := scalar_eq (Or.inr ⟨b, rfl⟩) (kind_eq h)
    exact ⟨rfl, List.append_cancel_left h⟩
  | int n, w, r, r', hr, hr', h => number_append hr hr' rfl (number_of_kind (kind_eq h)) h
  | float n, w, r, r', hr, hr', h => number_append hr hr' rfl (number_of_kind (kind_eq h)) h
  | str s, w, r, r', _, _, h => by
    obtain ⟨t, rfl⟩ := str_of_kind (kind_eq h)
    obtain ⟨rfl, hrest⟩ := quote_append h
    exact ⟨rfl, hrest⟩
  | list [], w, r, r', _, _, h => by
    obtain ⟨ys, rfl⟩ := list_of_kind (kind_eq h)
    cases ys with
    | nil => exact ⟨rfl, List.append_cancel_left h⟩
    | cons y ys =>
      simp only [render, List.cons_append, List.cons.injEq, true_and, List.append_assoc, List.nil_append] at h
      exact (not_close h.symm).elim
  | list (x :: xs), w, r, r', _, _, h => by
    obtain ⟨ys, rfl⟩ := list_of_kind (kind_eq h)
    cases ys with
    | nil =>
      simp only [render, List.cons_append, List.cons.injEq, true_and, List.append_assoc, List.nil_append] at h
      exact (not_close h).elim
    | cons y ys =>
      simp only [render, List.cons_append, List.append_assoc, List.cons.injEq, true_and, List.nil_append] at h
      obtain ⟨rfl, htail⟩ := render_append x y stops_elems stops_elems h
      obtain ⟨rfl, hrest⟩ := renderElems_append xs ys htail
      exact ⟨rfl, hrest⟩
  | dict [], w, r, r', _, _, h => by
    obtain ⟨kvs', rfl⟩ := dict_of_kind (kind_eq h)
    cases kvs' with
    | nil => exact ⟨rfl, List.append_cancel_left h⟩
    | cons m kvs' => exact absurd h (by simp [render, quote])
  | dict ((k, v) :: kvs), w, r, r', _, _, h => by
    obtain ⟨kvs', rfl⟩ := dict_of_kind (kind_eq h)
    cases kvs' with
    | nil => exact absurd h (by simp [render, quote])
    | cons m kvs' =>
      obtain ⟨k', v'⟩ := m
      simp only [render, List.cons_append, List.append_assoc, List.cons.injEq, true_and, List.nil_append] at h
      obtain ⟨rfl, hvalue⟩ := quote_append h
      obtain ⟨rfl, htail⟩ := render_append v v' stops_members stops_members (List.cons.inj hvalue).2
      obtain ⟨rfl, hrest⟩ := renderMembers_append kvs kvs' htail
      exact ⟨rfl, hrest⟩

theorem renderElems_append : ∀ (xs ys : List PyValue) {r r' : List Char},
    renderElems xs ++ ']' :: r = renderElems ys ++ ']' :: r' → xs = ys ∧ r = r'
  | [], [], r, r', h => ⟨rfl, (List.cons.inj h).2⟩
  | [], y :: ys, r, r', h => absurd (List.cons.inj h).1 (by decide)
  | x :: xs, [], r, r', h => absurd (List.cons.inj h).1 (by decide)
  | x :: xs, y :: ys, r, r', h => by
    simp only [renderElems, List.cons_append, List.append_assoc, List.cons.injEq, true_and] at h
    obtain ⟨rfl, htail⟩ := render_append x y stops_elems stops_elems h
    obtain ⟨rfl, hrest⟩ := renderElems_append xs ys htail
    exact ⟨rfl, hrest⟩

theorem renderMembers_append : ∀ (kvs kvs' : List (String × PyValue)) {r r' : List Char},
    renderMembers kvs ++ '}' :: r = renderMembers kvs' ++ '}' :: r' → kvs = kvs' ∧ r = r'
  | [], [], r, r', h => ⟨rfl, (List.cons.inj h).2⟩
  | [], m :: kvs', r, r', h => absurd (List.cons.inj h).1 (by decide)
  | m :: kvs, [], r, r', h => absurd (List.cons.inj h).1 (by decide)
  | (k, v) :: kvs, (k', v') :: kvs', r, r', h => by
    simp only [renderMembers, List.cons_append, List.append_assoc, List.cons.injEq, true_and] at h
    obtain ⟨rfl, hvalue⟩ := quote_append h
    obtain ⟨rfl, htail⟩ := render_append v v' stops_members stops_members (List.cons.inj hvalue).2
    obtain ⟨rfl, hrest⟩ := renderMembers_append kvs kvs' htail
    exact ⟨rfl, hrest⟩
end

/-- **The canonical text determines the canonical value.** -/
theorem raw_inj {v w : PyValue} : v.raw = w.raw ↔ v.canon = w.canon := by
  refine ⟨fun h => ?_, fun h => by rw [raw, h, raw]⟩
  have happend : v.canon.render ++ [] = w.canon.render ++ [] := by
    rw [List.append_nil, List.append_nil]
    exact h
  exact (render_append _ _ Json.stops_nil Json.stops_nil happend).1

end

/-! ## Canonical values -/

section
variable {k : String} {v w : PyValue} {kvs kvs' : List (String × PyValue)} {xs ys : List PyValue}

theorem map_fst_canonMembers : (canonMembers kvs).map Prod.fst = kvs.map Prod.fst := by
  rw [canonMembers_eq, List.map_map]
  rfl

theorem getKey_canonMembers : getKey k (canonMembers kvs) = (getKey k kvs).map canon := by
  rw [canonMembers_eq]
  induction kvs with
  | nil => rfl
  | cons m kvs ih =>
    by_cases hm : m.1 = k
    · simp [getKey, lookup, hm]
    · simpa [getKey, lookup, hm] using ih

theorem getKey_perm (hn : (kvs.map Prod.fst).Nodup) (h : kvs.Perm kvs') : getKey k kvs = getKey k kvs' := by
  rw [getKey, getKey, lookup_perm hn h]

/-- **Canonical dictionaries are compared member by member.** -/
theorem canon_dict (hn : (kvs.map Prod.fst).Nodup) (hn' : (kvs'.map Prod.fst).Nodup) :
    (dict kvs).canon = (dict kvs').canon ↔ ∀ k, (getKey k kvs).map canon = (getKey k kvs').map canon := by
  have hc : ((canonMembers kvs).map Prod.fst).Nodup := by rwa [map_fst_canonMembers]
  have hc' : ((canonMembers kvs').map Prod.fst).Nodup := by rwa [map_fst_canonMembers]
  have hperm := List.perm_insertionSort byKey (canonMembers kvs)
  have hperm' := List.perm_insertionSort byKey (canonMembers kvs')
  rw [canon, canon, dict.injEq]
  constructor
  · intro h k
    have hsame : (canonMembers kvs).Perm (canonMembers kvs') := hperm.symm.trans (h ▸ hperm')
    rw [← getKey_canonMembers, ← getKey_canonMembers]
    exact getKey_perm hc hsame
  · intro h
    have hmem : ∀ m, m ∈ canonMembers kvs ↔ m ∈ canonMembers kvs' := by
      rintro ⟨k, v⟩
      have hget : getKey k (canonMembers kvs) = getKey k (canonMembers kvs') := by
        rw [getKey_canonMembers, getKey_canonMembers, h k]
      constructor
      · intro hm
        exact mem_of_getKey (hget ▸ getKey_of_mem hc hm)
      · intro hm
        exact mem_of_getKey (hget.symm ▸ getKey_of_mem hc' hm)
    have hsame : (canonMembers kvs).Perm (canonMembers kvs') :=
      (List.perm_ext_iff_of_nodup (List.Nodup.of_map _ hc) (List.Nodup.of_map _ hc')).2 hmem
    refine List.Perm.eq_of_pairwise ?_ (List.pairwise_insertionSort byKey _) (List.pairwise_insertionSort byKey _)
      (hperm.trans (hsame.trans hperm'.symm))
    -- members of one list with one key are one member
    intro a b ha hb hab hba
    have ha' := hperm.mem_iff.1 ha
    have hb' := (hmem b).2 (hperm'.mem_iff.1 hb)
    exact eq_of_key_eq hc ha' hb' (String.le_antisymm hab hba)

/-- Both values are missing, or they are equal. -/
def eqvOption : Option PyValue → Option PyValue → Bool
  | none, none => true
  | some v, some w => eqv v w
  | _, _ => false

/-- **Dictionaries are compared member by member.** -/
theorem eqv_dict (hn : (kvs.map Prod.fst).Nodup) (hn' : (kvs'.map Prod.fst).Nodup) :
    eqv (dict kvs) (dict kvs') = true ↔ ∀ k, eqvOption (getKey k kvs) (getKey k kvs') = true := by
  rw [eqv, Bool.and_eq_true, decide_eq_true_eq, eqvMembers_iff]
  constructor
  · rintro ⟨hlength, hmembers⟩ k
    have hsubset : kvs.map Prod.fst ⊆ kvs'.map Prod.fst := by
      intro k hk
      obtain ⟨m, hm, rfl⟩ := List.mem_map.1 hk
      obtain ⟨w, hw, -⟩ := hmembers m hm
      exact List.mem_map.2 ⟨_, mem_of_getKey hw, rfl⟩
    have hperm : (kvs.map Prod.fst).Perm (kvs'.map Prod.fst) :=
      (List.subperm_of_subset hn hsubset).perm_of_length_le (by simp [hlength])
    cases hv : getKey k kvs with
    | none =>
      rw [getKey_eq_none, hperm.mem_iff, ← getKey_eq_none] at hv
      rw [hv]
      rfl
    | some v =>
      obtain ⟨w, hw, heq⟩ := hmembers (k, v) (mem_of_getKey hv)
      rw [hw]
      exact heq
  · intro h
    have hkeys : ∀ k, k ∈ kvs.map Prod.fst ↔ k ∈ kvs'.map Prod.fst := by
      intro k
      rw [← not_iff_not, ← getKey_eq_none, ← getKey_eq_none]
      have hk := h k
      cases hv : getKey k kvs <;> cases hw : getKey k kvs' <;> rw [hv, hw] at hk <;> simp_all [eqvOption]
    have hperm : (kvs.map Prod.fst).Perm (kvs'.map Prod.fst) := (List.perm_ext_iff_of_nodup hn hn').2 hkeys
    refine ⟨by simpa using hperm.length_eq, fun m hm => ?_⟩
    have hk := h m.1
    rw [getKey_of_mem hn hm] at hk
    cases hw : getKey m.1 kvs' with
    | none => rw [hw] at hk; cases hk
    | some w => exact ⟨w, rfl, by rw [hw] at hk; exact hk⟩

mutual
/-- **Values with one canonical text are equal**, by recursion on the value. -/
theorem eqv_of_canon : ∀ (v w : PyValue), v.Distinct → w.Distinct → v.canon = w.canon → eqv v w = true
  | null, w, _, _, h => by
    cases w <;> first | rfl | cases h
  | bool b, w, _, _, h => by
    cases w <;> first | (cases h; simp [eqv, number?]) | cases h
  | int n, w, _, _, h => by
    cases w <;> first | (cases h; simp [eqv, number?]) | cases h
  | float x, w, _, _, h => by
    cases w <;> first | (cases h; simp [eqv, number?]) | cases h
  | str s, w, _, _, h => by
    cases w <;> first | (cases h; simp [eqv]) | cases h
  | list xs, w, hv, hw, h => by
    cases w with
    | list ys =>
      rw [Distinct] at hv hw
      rw [canon, canon, list.injEq] at h
      exact eqvElems_of_canon xs ys hv hw h
    | _ => cases h
  | dict kvs, w, hv, hw, h => by
    cases w with
    | dict kvs' =>
      rw [Distinct] at hv hw
      have hget := (canon_dict hv.1 hw.1).1 h
      have hlength : kvs.length = kvs'.length := by
        rw [canon, canon, dict.injEq] at h
        have hsame := congrArg List.length h
        rwa [List.length_insertionSort, List.length_insertionSort, canonMembers_eq, canonMembers_eq, List.length_map,
          List.length_map] at hsame
      rw [eqv, decide_eq_true hlength, Bool.true_and]
      refine eqvMembers_of_canon kvs kvs' hv.2 hw.2 fun m hm => ?_
      have hk := hget m.1
      rw [getKey_of_mem hv.1 hm] at hk
      obtain ⟨w, hw, hcanon⟩ := Option.map_eq_some_iff.1 hk.symm
      exact ⟨w, hw, hcanon.symm⟩
    | _ => cases h

theorem eqvElems_of_canon : ∀ (xs ys : List PyValue), DistinctElems xs → DistinctElems ys →
    canonElems xs = canonElems ys → eqvElems xs ys = true
  | [], [], _, _, _ => rfl
  | [], _ :: _, _, _, h => by cases h
  | _ :: _, [], _, _, h => by cases h
  | x :: xs, y :: ys, hx, hy, h => by
    rw [canonElems, canonElems, List.cons.injEq] at h
    rw [DistinctElems] at hx hy
    rw [eqvElems, eqv_of_canon x y hx.1 hy.1 h.1, eqvElems_of_canon xs ys hx.2 hy.2 h.2]
    rfl

theorem eqvMembers_of_canon : ∀ (kvs kvs' : List (String × PyValue)), DistinctMembers kvs → DistinctMembers kvs' →
    (∀ m ∈ kvs, ∃ w, getKey m.1 kvs' = some w ∧ m.2.canon = w.canon) → eqvMembers kvs kvs' = true
  | [], _, _, _, _ => by rw [eqvMembers]
  | (k, v) :: kvs, kvs', hv, hw, h => by
    obtain ⟨w, hget, hcanon⟩ := h (k, v) List.mem_cons_self
    have hw' : w.Distinct := distinctMembers_iff.1 hw (k, w) (mem_of_getKey hget)
    rw [DistinctMembers] at hv
    rw [eqvMembers, hget, eqvMembers_of_canon kvs kvs' hv.2 hw fun m hm => h m (List.mem_cons_of_mem _ hm)]
    simp only [Bool.and_true]
    exact eqv_of_canon v w hv.1 hw' hcanon
end

end

/-! ## A text of floats -/

/-- A text of the floats that agrees with Python on whole numbers. -/
@[reducible] def wholeText : FloatText where
  text
    | .negZero => ['-', '0', '.', '0']
    | .of q => intText q.num ++ '.' :: decimal (q.den - 1)
  injective := by
    have hpoint : ∀ {r : List Char}, ∀ c ∈ ('.' :: r).head?, ¬c ≠ '.' := by
      intro r c hc
      exact not_not.2 (Option.some.inj hc).symm
    have hint : ∀ n : ℤ, ∀ c ∈ intText n, c ≠ '.' := fun n c hc hdot => not_point_int (Or.inl rfl) (hdot ▸ hc)
    have hzero : ∀ {q : ℚ}, ['-', '0', '.', '0'] ≠ intText q.num ++ '.' :: decimal (q.den - 1) := by
      intro q h
      have hsplit := (span_append (s := ['-', '0']) (List.all_iff_forall_prop.1 (by decide)) (hint q.num) hpoint hpoint h).1
      unfold intText at hsplit
      split_ifs at hsplit with hneg
      · have habs : decimal 0 = decimal q.num.natAbs := (List.cons.inj hsplit).2
        have hnum := Json.decimal_injective habs
        omega
      · have hminus : '-' ∈ decimal q.num.natAbs := hsplit ▸ List.mem_cons_self
        exact absurd (Json.decimal_isDigit _ hminus) (by decide)
    intro x y h
    cases x with
    | negZero =>
      cases y with
      | negZero => rfl
      | of q => exact absurd h hzero
    | of p =>
      cases y with
      | negZero => exact absurd h.symm hzero
      | of q =>
        obtain ⟨hnum, hden⟩ := span_append (hint p.num) (hint q.num) hpoint hpoint h
        have hden := Json.decimal_injective (List.cons.inj hden).2
        have hp := p.den_pos
        have hq := q.den_pos
        rw [Rat.ext (intText_injective hnum) (by omega)]
  head := by
    intro x
    cases x with
    | negZero => exact ⟨_, _, rfl, Or.inl rfl⟩
    | of q =>
      obtain ⟨c, cs, hcs, hc⟩ := intText_head q.num
      exact ⟨c, cs ++ '.' :: decimal (q.den - 1), by simp only [hcs, List.cons_append], hc⟩
  chars := by
    intro x c hc
    cases x with
    | negZero =>
      revert c
      exact List.all_iff_forall_prop.1 (by decide)
    | of q =>
      rcases List.mem_append.1 hc with hc | hc
      · rcases intText_chars hc with rfl | hc
        · exact Or.inr (by simp)
        · exact Or.inl hc
      · rcases List.mem_cons.1 hc with rfl | hc
        · exact Or.inr (by simp)
        · exact Or.inl (Json.decimal_isDigit c hc)
  point := by
    intro x
    cases x with
    | negZero => exact Or.inl (by decide)
    | of q => exact Or.inl (List.mem_append_right _ List.mem_cons_self)

end PyValue
end Verif
