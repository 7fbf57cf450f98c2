/-
  The limits on bytes refuse nothing that the limits on numbers of records allow.
-/
import Mathlib.Algebra.Order.BigOperators.Group.List
import SmartHome.Maintenance.Known

namespace SmartHome.Maintenance

open Verif Mqtt

/-! ## Values -/

theorem bytes_hex {n : ℕ} (h : Hex n) : (Json.str h.1).bytes = n + 2 := by
  have hchar : ∀ c ∈ h.1.toList, c.toNat < 128 := fun c hc => by
    have := toNat_of_mem_hex h c hc
    omega
  rw [Json.bytes_str_plain (plain_hex h) hchar, length_toList_hex]

theorem bytes_optHex_le (o : Option (Hex 64)) : (o.elim .null fun h => Json.str h.1).bytes ≤ 66 := by
  cases o with
  | none => decide
  | some h => exact (bytes_hex h).le

/-- A text of digits. -/
theorem bytes_digits {s : String} (h : ∀ c ∈ s.toList, c.isDigit = true) : (Json.str s).bytes = s.toList.length + 2 := by
  refine Json.bytes_str_plain (fun c hc => plain_of_isDigit (h c hc)) fun c hc => ?_
  have := isDigit_toNat (h c hc)
  omega

theorem bytes_num_le {n d : ℕ} (hd : 0 < d) (h : n < 10 ^ d) : (num n).bytes ≤ d + 2 := by
  rw [num, bytes_digits, String.toList_ofList]
  · exact Nat.add_le_add_right ((Nat.length_toDigits_le_iff (by norm_num) hd).2 h) 2
  · intro c hc
    rw [String.toList_ofList] at hc
    exact Json.decimal_isDigit c hc

theorem bytes_u64_le {n : ℕ} (h : n < 2 ^ 64) : (num n).bytes ≤ 22 := bytes_num_le (by norm_num) (h.trans (by norm_num))

theorem bytes_uint_le {bits : ℕ} {v : Json} (h : (uint bits v).isSome = true) : v.bytes ≤ 41 := by
  cases v with
  | str s =>
    have hread : ∃ n, decimal? 38 s = some n := by
      cases hs : decimal? 38 s with
      | none =>
        rw [uint, hs] at h
        cases h
      | some n => exact ⟨n, rfl⟩
    obtain ⟨n, hn⟩ := hread
    unfold decimal? at hn
    split at hn
    · cases hn
    · cases hn
    · split_ifs at hn with hdigits
      rw [Bool.and_eq_true, List.all_eq_true, decide_eq_true_eq] at hdigits
      rw [bytes_digits hdigits.1]
      exact Nat.add_le_add_right hdigits.2 2
  | _ => cases h

theorem bytes_oneOf_le {words : List String} {v : Json} {b : ℕ} (h : oneOf words v = true)
    (hwords : ∀ s ∈ words, (Json.str s).bytes ≤ b) : v.bytes ≤ b := by
  cases v with
  | str s => exact hwords s (List.contains_iff_mem.1 h)
  | _ => cases h

theorem Rule.bytes_le {rule : Rule} {v : Json} (h : rule.allows v = true) : v.bytes ≤ 66 := by
  cases rule with
  | h =>
    obtain ⟨digest, hdigest⟩ := Option.isSome_iff_exists.1 h
    rw [hex?_eq_some.1 hdigest, bytes_hex]
  | u64 => exact (bytes_uint_le h).trans (by decide)
  | u128 => exact (bytes_uint_le h).trans (by decide)
  | b =>
    cases v with
    | bool value => cases value <;> decide
    | _ => cases h
  | code =>
    cases v with
    | int n =>
      have hn : 0 ≤ n ∧ n ≤ 255 := of_decide_eq_true h
      obtain ⟨m, rfl⟩ := Int.eq_ofNat_of_zero_le hn.1
      exact (Json.bytes_nat_le (n := m) (d := 3) (by decide) (by omega)).trans (by decide)
    | _ => cases h
  | state => exact bytes_oneOf_le h (by decide)
  | purpose => exact bytes_oneOf_le h (by decide)
  | identity => exact bytes_oneOf_le h (by decide)
  | reason => exact bytes_oneOf_le h (by decide)
  | closedSource => exact bytes_oneOf_le h (by decide)
  | expiry =>
    rcases Bool.or_eq_true_iff.1 h with h | h
    · exact bytes_oneOf_le h (by decide)
    · exact (bytes_uint_le h).trans (by decide)
  | unknown => exact bytes_oneOf_le h (by decide)
  | isFalse =>
    cases v with
    | bool value => cases value <;> decide
    | _ => cases h

/-! ## Records -/

/-- The most that facts with these keys may need. -/
def factBytes (keys : List String) : ℕ := (keys.map fun k => byteLength (Json.quote k) + 68).sum

theorem factBytes_rules_le (phase : Phase) : factBytes ((rules phase).map Prod.fst) ≤ 1300 := by
  cases phase <;> decide +kernel

theorem bytes_facts_le {phase : Phase} {facts : Facts} (h : ValidFacts phase facts) : (Json.obj facts.1).bytes ≤ 1301 := by
  obtain ⟨hkeys, hrules⟩ := h
  have hvalue : ∀ m ∈ facts.1, m.2.bytes ≤ 66 := by
    intro m hm
    have hnodup : (facts.1.map Prod.fst).Nodup := Json.pairwise_lt_nodup facts.2
    obtain ⟨r, hr, hkey⟩ := List.mem_map.1 (hkeys.mem_iff.1 (List.mem_map_of_mem hm))
    have hallows := hrules r hr
    rw [Facts.get, hkey, Json.get?_of_mem hnodup hm] at hallows
    exact Rule.bytes_le hallows
  have hsum : (facts.1.map Json.memberBytes).sum ≤ factBytes (facts.1.map Prod.fst) := by
    rw [factBytes, List.map_map]
    refine List.sum_le_sum fun m hm => ?_
    have := hvalue m hm
    show byteLength (Json.quote m.1) + m.2.bytes + 2 ≤ byteLength (Json.quote m.1) + 68
    omega
  have hperm : factBytes (facts.1.map Prod.fst) = factBytes ((rules phase).map Prod.fst) :=
    (hkeys.map _).sum_eq
  have hne : facts.1 ≠ [] := by
    intro hnil
    rw [hnil, List.map_nil, List.nil_perm] at hkeys
    revert hkeys
    cases phase <;> decide
  rw [Json.bytes_obj hne]
  exact Nat.add_le_add_right (hsum.trans (hperm.le.trans (factBytes_rules_le phase))) 1

theorem bytes_name_le (phase : Phase) : (Json.str phase.name).bytes ≤ 27 := by cases phase <;> decide

section
variable [Sha256] {op : Operation} {first row : Row}

def bodyKeys : List String :=
  ["approval_sha256", "at_ns", "clock_domain_sha256", "facts", "operation_id", "phase", "previous_sha256",
    "schema_version", "sequence"]

theorem Operation.RowValid.bytes_le {i : ℕ} {previous : Option Row} {last : Bool} (h : op.RowValid first i previous last row)
    (hi : i ≤ phases.length) : row.json.bytes ≤ 1820 := by
  obtain ⟨⟨-, -, hfacts, hat, hsequence, -⟩, -⟩ := h
  have hi' : row.body.sequence < 10 ^ 2 := by
    have hlen : phases.length = 14 := rfl
    omega
  have hbody : row.body.json.bytes ≤ Json.keyBytes bodyKeys + [66, 22, 66, 1301, 34, 27, 66, 1, 4].sum + 1 :=
    Json.bytes_obj_le rfl (by decide) (.cons (bytes_hex _).le (.cons (bytes_u64_le hat) (.cons (bytes_hex _).le
      (.cons (bytes_facts_le hfacts) (.cons (bytes_hex _).le (.cons (bytes_name_le _) (.cons (bytes_optHex_le _)
      (.cons (by decide) (.cons (bytes_num_le (by norm_num) hi') .nil)))))))))
  have hrow : row.json.bytes ≤ Json.keyBytes ["body", "sha256"] + [1730, 66].sum + 1 :=
    Json.bytes_obj_le rfl (by decide) (.cons (hbody.trans (by decide)) (.cons (bytes_hex row.sha256).le .nil))
  exact hrow.trans (by decide)

theorem Operation.RowsValid.mem {rows : List Row} {i : ℕ} {previous : Option Row} (h : op.RowsValid first i previous rows)
    (hrow : row ∈ rows) : ∃ j previous' last, j < i + rows.length ∧ op.RowValid first j previous' last row := by
  induction rows generalizing i previous with
  | nil => cases hrow
  | cons r rows ih =>
    rcases List.mem_cons.1 hrow with rfl | hrow
    · exact ⟨i, previous, rows.isEmpty, by rw [List.length_cons]; omega, h.1⟩
    · obtain ⟨j, previous', last, hj, hvalid⟩ := ih h.2 hrow
      exact ⟨j, previous', last, by rw [List.length_cons]; omega, hvalid⟩

theorem Operation.Valid.bytes_le (h : op.Valid) : op.json.bytes ≤ 28000 := by
  obtain ⟨hlen, first, -, hrows⟩ := h
  have hrow : ∀ v ∈ op.records.map Row.json, v.bytes ≤ 1820 := by
    rintro v hv
    obtain ⟨row, hmem, rfl⟩ := List.mem_map.1 hv
    obtain ⟨j, previous, last, hj, hvalid⟩ := hrows.mem hmem
    exact hvalid.bytes_le (by omega)
  have hrecords : (Json.arr (op.records.map Row.json)).bytes ≤ 27317 := by
    refine (Json.bytes_arr_le hrow).trans ?_
    rw [List.length_map]
    have hfifteen : op.records.length ≤ 15 := hlen
    omega
  have hjson : op.json.bytes ≤ Json.keyBytes ["approval_sha256", "operation_id", "records"] + [66, 34, 27317].sum + 1 :=
    Json.bytes_obj_le rfl (by decide) (.cons (bytes_hex _).le (.cons (bytes_hex _).le (.cons hrecords .nil)))
  exact hjson.trans (by decide)

/-! ## Files -/

/-- An operation has room in a file of the archive. -/
theorem Operation.Valid.file_fits (h : op.Valid) : fileBytes op.file ≤ maxOperationBytes := by
  have hfile : op.file.bytes ≤ Json.keyBytes ["operation", "schema_version", "sha256"] + [28000, 1, 66].sum + 1 :=
    Json.bytes_obj_le rfl (by decide) (.cons h.bytes_le (.cons (by decide) (.cons (bytes_hex _).le .nil)))
  rw [fileBytes]
  exact hfile.trans (by decide)

theorem fileBytes_sealed_le {body : Json} {b : ℕ} (h : body.bytes ≤ b) : fileBytes (sealed body) ≤ b + 100 := by
  have hsealed : (sealed body).bytes ≤ Json.keyBytes ["body", "sha256"] + [b, 66].sum + 1 :=
    Json.bytes_obj_le rfl (by decide) (.cons h (.cons (bytes_hex _).le .nil))
  have hkeys : Json.keyBytes ["body", "sha256"] = 18 := by decide
  rw [hkeys, List.sum_cons, List.sum_cons, List.sum_nil] at hsealed
  rw [fileBytes]
  omega

theorem Snapshot.Valid.fits {s : Snapshot} (h : s.Valid) : fileBytes (sealed s.json) ≤ maxBytes := by
  obtain ⟨hrevision, harchive, hlen, -, hops⟩ := h
  have hop : ∀ v ∈ s.operations.map Operation.json, v.bytes ≤ 28000 := by
    rintro v hv
    obtain ⟨op, hmem, rfl⟩ := List.mem_map.1 hv
    exact (hops op hmem).bytes_le
  have hoperations : (Json.arr (s.operations.map Operation.json)).bytes ≤ 448018 := by
    refine (Json.bytes_arr_le hop).trans ?_
    rw [List.length_map]
    have hsixteen : s.operations.length ≤ 16 := hlen
    omega
  have hjson : s.json.bytes ≤ 448300 := by
    rw [Snapshot.json]
    cases ha : s.archive with
    | none =>
      have hobj : (Json.obj [("operations", .arr (s.operations.map Operation.json)), ("revision", num s.revision),
          ("schema_version", .int 1)]).bytes ≤
          Json.keyBytes ["operations", "revision", "schema_version"] + [448018, 22, 1].sum + 1 :=
        Json.bytes_obj_le rfl (by decide) (.cons hoperations (.cons (bytes_u64_le hrevision) (.cons (by decide) .nil)))
      exact hobj.trans (by decide)
    | some a =>
      have hobj : (Json.obj [("archive_sha256", a.sha256.elim .null fun h => .str h.1), ("archived_operations", num a.count),
          ("operations", .arr (s.operations.map Operation.json)), ("revision", num s.revision),
          ("schema_version", .int 2)]).bytes ≤
          Json.keyBytes ["archive_sha256", "archived_operations", "operations", "revision", "schema_version"] +
          [66, 22, 448018, 22, 1].sum + 1 :=
        Json.bytes_obj_le rfl (by decide) (.cons (bytes_optHex_le _) (.cons (bytes_u64_le (harchive a ha).1)
          (.cons hoperations (.cons (bytes_u64_le hrevision) (.cons (by decide) .nil)))))
      exact hobj.trans (by decide)
  exact (fileBytes_sealed_le hjson).trans (by decide)

omit [Sha256] in
theorem IndexRow.bytes_le {r : IndexRow} (h : r.phase ∈ terminal) : r.json.bytes ≤ 250 := by
  have hphase : (Json.str r.phase.name).bytes ≤ 17 := by
    revert h
    cases r.phase <;> decide
  have hjson : r.json.bytes ≤
      Json.keyBytes ["operation_id", "operation_sha256", "phase", "terminal_sha256"] + [34, 66, 17, 66].sum + 1 :=
    Json.bytes_obj_le rfl (by decide) (.cons (bytes_hex _).le (.cons (bytes_hex _).le (.cons hphase
      (.cons (bytes_hex _).le .nil))))
  exact hjson.trans (by decide)

omit [Sha256] in
theorem Index.Valid.bytes_le {ix : Index} (h : ix.Valid) : ix.json.bytes ≤ 1028300 := by
  obtain ⟨hlen, hrevision, -, -, hterminal⟩ := h
  have hrow : ∀ v ∈ ix.operations.map IndexRow.json, v.bytes ≤ 250 := by
    rintro v hv
    obtain ⟨r, hmem, rfl⟩ := List.mem_map.1 hv
    exact IndexRow.bytes_le (hterminal r hmem)
  have hoperations : (Json.arr (ix.operations.map IndexRow.json)).bytes ≤ 1028098 := by
    refine (Json.bytes_arr_le hrow).trans ?_
    rw [List.length_map]
    have hmax : ix.operations.length ≤ 4096 := hlen
    omega
  have hjson : ix.json.bytes ≤ Json.keyBytes ["operations", "revision", "schema_version"] + [1028098, 22, 1].sum + 1 :=
    Json.bytes_obj_le rfl (by decide) (.cons hoperations (.cons (bytes_u64_le hrevision) (.cons (by decide) .nil)))
  exact hjson.trans (by decide)

theorem Index.Valid.fits {ix : Index} (h : ix.Valid) : fileBytes (sealed ix.json) ≤ maxBytes :=
  (fileBytes_sealed_le h.bytes_le).trans (by decide)

end
end SmartHome.Maintenance
