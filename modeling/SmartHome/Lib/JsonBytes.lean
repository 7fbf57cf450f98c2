/-
  The number of UTF-8 bytes of a JSON text, member by member.
-/
import SmartHome.Lib.Json
import SmartHome.Lib.Utf8

namespace Verif

/-! ## Texts -/

/-- The number of bytes of a text (`Buffer.byteLength`). -/
def byteLength (t : List Char) : ℕ := (t.map Char.utf8Size).sum

@[simp] theorem byteLength_nil : byteLength [] = 0 := rfl

@[simp] theorem byteLength_cons (c : Char) (t : List Char) :
    byteLength (c :: t) = c.utf8Size + byteLength t := by
  simp [byteLength]

@[simp] theorem byteLength_append (s t : List Char) : byteLength (s ++ t) = byteLength s + byteLength t := by
  simp [byteLength]

theorem byteLength_ascii {t : List Char} (h : Json.Ascii t) : byteLength t = t.length := by
  induction t with
  | nil => rfl
  | cons c t ih =>
    obtain ⟨hc, ht⟩ := Json.ascii_cons.1 h
    have hsize : c.utf8Size = 1 := by
      rw [Char.utf8Size_eq_one_iff, UInt32.le_iff_toNat_le]
      exact Nat.le_of_lt_succ hc
    rw [byteLength_cons, ih ht, hsize, List.length_cons, Nat.add_comm]

theorem length_utf8 (t : List Char) : (utf8 t).length = byteLength t := by
  induction t with
  | nil => rfl
  | cons c t ih => rw [utf8_cons, List.length_append, ih, byteLength_cons, String.length_utf8EncodeChar]

namespace Json

theorem utf8Size_le_escape (c : Char) : c.utf8Size ≤ byteLength (escape c) := by
  rcases Nat.lt_or_ge c.toNat 128 with h | h
  · have hsize : c.utf8Size = 1 := by
      rw [Char.utf8Size_eq_one_iff, UInt32.le_iff_toNat_le]
      exact Nat.le_of_lt_succ h
    rw [hsize, byteLength_ascii (ascii_escape h), Nat.succ_le_iff, List.length_pos_iff]
    unfold escape
    split_ifs <;> exact List.cons_ne_nil _ _
  · have hne : ∀ d : Char, d.toNat < 128 → c ≠ d := by
      rintro d hd rfl
      omega
    rw [escape_plain ⟨by omega, hne _ (by decide), hne _ (by decide)⟩]
    simp

/-- A text is shorter than it is in quotes. -/
theorem byteLength_quote (s : String) : byteLength s.toList ≤ byteLength (quote s) := by
  have h : ∀ t : List Char, byteLength t ≤ byteLength (t.flatMap escape) := fun t => by
    induction t with
    | nil => exact le_rfl
    | cons c t ih =>
      rw [byteLength_cons, List.flatMap_cons, byteLength_append]
      exact Nat.add_le_add (utf8Size_le_escape c) ih
  rw [quote, byteLength_cons, byteLength_append]
  exact Nat.le_add_left_of_le (Nat.le_add_right_of_le (h s.toList))

/-! ## Values -/

/-- The number of bytes of the text of a value. -/
def bytes (j : Json) : ℕ := byteLength j.render

/-- The bytes of a member of an object, with the comma after it. -/
def memberBytes (m : String × Json) : ℕ := byteLength (quote m.1) + m.2.bytes + 2

theorem byteLength_renderMembers {kvs : List (String × Json)} (h : kvs ≠ []) :
    byteLength (renderMembers kvs) + 1 = (kvs.map memberBytes).sum := by
  have hcolon : ':'.utf8Size = 1 := by decide
  have hcomma : ','.utf8Size = 1 := by decide
  induction kvs with
  | nil => exact absurd rfl h
  | cons m kvs ih =>
    obtain ⟨k, v⟩ := m
    cases kvs with
    | nil =>
      simp only [renderMembers, byteLength_append, byteLength_cons, hcolon, memberBytes, bytes,
        List.map_cons, List.map_nil, List.sum_cons, List.sum_nil]
      omega
    | cons m kvs =>
      have hrest := ih (List.cons_ne_nil _ _)
      simp only [renderMembers, byteLength_append, byteLength_cons, hcolon, hcomma, memberBytes, bytes,
        List.map_cons, List.sum_cons] at hrest ⊢
      omega

theorem bytes_obj {kvs : List (String × Json)} (h : kvs ≠ []) :
    (obj kvs).bytes = (kvs.map memberBytes).sum + 1 := by
  have hopen : '{'.utf8Size = 1 := by decide
  have hclose : '}'.utf8Size = 1 := by decide
  rw [← byteLength_renderMembers h, bytes, render, byteLength_cons, byteLength_append, byteLength_cons,
    byteLength_nil, hopen, hclose]
  omega

/-- The bytes of the keys of an object, with the colons and commas. -/
def keyBytes (keys : List String) : ℕ := (keys.map fun k => byteLength (quote k) + 2).sum

/-- An object whose values are bounded one by one. -/
theorem bytes_obj_le {kvs : List (String × Json)} {keys : List String} {bounds : List ℕ}
    (hkeys : kvs.map Prod.fst = keys) (hne : keys ≠ [])
    (hbounds : List.Forall₂ (fun v b => v.bytes ≤ b) (kvs.map Prod.snd) bounds) :
    (obj kvs).bytes ≤ keyBytes keys + bounds.sum + 1 := by
  have hmembers : ∀ {kvs : List (String × Json)} {bounds : List ℕ},
      List.Forall₂ (fun v b => v.bytes ≤ b) (kvs.map Prod.snd) bounds →
      (kvs.map memberBytes).sum ≤ keyBytes (kvs.map Prod.fst) + bounds.sum := by
    intro kvs
    induction kvs with
    | nil =>
      intro bounds _
      exact Nat.zero_le _
    | cons m kvs ih =>
      intro bounds h
      obtain ⟨b, bounds', hb, h', rfl⟩ := List.forall₂_cons_left_iff.1 h
      have hrest := ih h'
      simp only [keyBytes, memberBytes, List.map_cons, List.sum_cons] at hrest ⊢
      omega
  have hkvs : kvs ≠ [] := by
    rintro rfl
    exact hne hkeys.symm
  rw [bytes_obj hkvs, ← hkeys]
  exact Nat.add_le_add_right (hmembers hbounds) 1

theorem byteLength_renderElems {xs : List Json} (h : xs ≠ []) :
    byteLength (renderElems xs) + 1 = (xs.map fun x => x.bytes + 1).sum := by
  have hcomma : ','.utf8Size = 1 := by decide
  induction xs with
  | nil => exact absurd rfl h
  | cons x xs ih =>
    cases xs with
    | nil => simp [renderElems, bytes]
    | cons y ys =>
      have hrest := ih (List.cons_ne_nil _ _)
      simp only [renderElems, byteLength_append, byteLength_cons, hcomma, bytes, List.map_cons,
        List.sum_cons] at hrest ⊢
      omega

/-- The bytes of an array; two more than its elements and the commas between them. -/
theorem bytes_arr (xs : List Json) :
    (arr xs).bytes = (xs.map fun x => x.bytes + 1).sum + if xs = [] then 2 else 1 := by
  have hopen : '['.utf8Size = 1 := by decide
  have hclose : ']'.utf8Size = 1 := by decide
  rw [bytes, render, byteLength_cons, byteLength_append, byteLength_cons, byteLength_nil, hopen, hclose]
  split_ifs with hnil
  · rw [hnil]; rfl
  · rw [← byteLength_renderElems hnil]
    omega

theorem bytes_arr_le {xs : List Json} {b : ℕ} (h : ∀ x ∈ xs, x.bytes ≤ b) :
    (arr xs).bytes ≤ xs.length * (b + 1) + 2 := by
  have hsum : (xs.map fun x => x.bytes + 1).sum ≤ xs.length * (b + 1) := by
    induction xs with
    | nil => exact Nat.zero_le _
    | cons x xs ih =>
      have hx := h x List.mem_cons_self
      have hxs := ih fun y hy => h y (List.mem_cons_of_mem _ hy)
      rw [List.map_cons, List.sum_cons, List.length_cons, Nat.succ_mul]
      omega
  rw [bytes_arr]
  split_ifs <;> omega

theorem bytes_str_plain {s : String} (h : ∀ c ∈ s.toList, Plain c) (ha : Ascii s.toList) :
    (str s).bytes = s.toList.length + 2 := by
  rw [bytes, render, byteLength_ascii (ascii_quote ha), length_quote_plain h]

theorem ascii_decimal (n : ℕ) : Ascii (decimal n) := by
  intro c hc
  have hdigit := decimal_isDigit c hc
  simp only [Char.isDigit, Bool.and_eq_true, decide_eq_true_eq, UInt32.le_iff_toNat_le] at hdigit
  exact (hdigit.2.trans_lt (by decide))

/-- A natural number with at most `d` digits. -/
theorem bytes_nat_le {n d : ℕ} (hd : 0 < d) (h : n < 10 ^ d) : (int n).bytes ≤ d := by
  rw [bytes, render, if_neg (by omega), Int.natAbs_natCast, byteLength_ascii (ascii_decimal n)]
  exact (Nat.length_toDigits_le_iff (by norm_num) hd).2 h

end Json
end Verif
