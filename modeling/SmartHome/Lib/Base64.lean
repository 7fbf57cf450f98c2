/-
  The base64url texts of bytes, without padding.  The reader is that of texts over the alphabet: bits
  that fill no byte are dropped, so several texts give the same bytes.
-/
import Mathlib.Tactic.Common
import Mathlib.Tactic.NormNum

namespace Verif

/-- The digits of base64url. -/
def alphabet64 : List Char := "ABCDEFGHIJKLMNOPQRSTUVWXYZabcdefghijklmnopqrstuvwxyz0123456789-_".toList

def digit64 (n : ℕ) : Char := alphabet64.getD n 'A'

def value64 (c : Char) : ℕ := alphabet64.idxOf c

/-- The text of bytes: four digits for three bytes. -/
def toBase64url : List UInt8 → List Char
  | [] => []
  | [a] => [digit64 (a.toNat / 4), digit64 (a.toNat % 4 * 16)]
  | [a, b] => [digit64 (a.toNat / 4), digit64 (a.toNat % 4 * 16 + b.toNat / 16), digit64 (b.toNat % 16 * 4)]
  | a :: b :: c :: bs => digit64 (a.toNat / 4) :: digit64 (a.toNat % 4 * 16 + b.toNat / 16) ::
      digit64 (b.toNat % 16 * 4 + c.toNat / 64) :: digit64 (c.toNat % 64) :: toBase64url bs

/-- The bytes of a text. -/
def fromBase64url : List Char → List UInt8
  | a :: b :: c :: d :: cs => UInt8.ofNat (value64 a * 4 + value64 b / 16) ::
      UInt8.ofNat (value64 b % 16 * 16 + value64 c / 4) :: UInt8.ofNat (value64 c % 4 * 64 + value64 d) ::
      fromBase64url cs
  | [a, b, c] => [UInt8.ofNat (value64 a * 4 + value64 b / 16), UInt8.ofNat (value64 b % 16 * 16 + value64 c / 4)]
  | [a, b] => [UInt8.ofNat (value64 a * 4 + value64 b / 16)]
  | _ => []

theorem value64_digit64 : ∀ {n : ℕ}, n < 64 → value64 (digit64 n) = n := by decide +kernel

theorem digit64_mem : ∀ {n : ℕ}, n < 64 → digit64 n ∈ alphabet64 := by decide +kernel

theorem ofNat_eq {n : ℕ} {a : UInt8} (h : n = a.toNat) : UInt8.ofNat n = a := by
  rw [h, UInt8.ofNat_toNat]

/-- **The bytes of a written text are those that were written.** -/
theorem fromBase64url_toBase64url (bs : List UInt8) : fromBase64url (toBase64url bs) = bs := by
  fun_induction toBase64url bs with
  | case1 => rfl
  | case2 a =>
    have ha := a.toNat_lt
    rw [fromBase64url, value64_digit64 (by omega), value64_digit64 (by omega)]
    exact congrArg (· :: []) (ofNat_eq (by omega))
  | case3 a b =>
    have ha := a.toNat_lt
    have hb := b.toNat_lt
    rw [fromBase64url, value64_digit64 (by omega), value64_digit64 (by omega), value64_digit64 (by omega),
      ofNat_eq (a := a) (by omega), ofNat_eq (a := b) (by omega)]
  | case4 a b c bs ih =>
    have ha := a.toNat_lt
    have hb := b.toNat_lt
    have hc := c.toNat_lt
    rw [fromBase64url, value64_digit64 (by omega), value64_digit64 (by omega), value64_digit64 (by omega),
      value64_digit64 (by omega), ih, ofNat_eq (a := a) (by omega), ofNat_eq (a := b) (by omega),
      ofNat_eq (a := c) (by omega)]

theorem length_toBase64url (bs : List UInt8) : (toBase64url bs).length = (4 * bs.length + 2) / 3 := by
  fun_induction toBase64url bs with
  | case4 a b c bs ih =>
    simp only [List.length_cons, ih]
    omega
  | _ => simp

theorem mem_toBase64url (bs : List UInt8) : ∀ c ∈ toBase64url bs, c ∈ alphabet64 := by
  fun_induction toBase64url bs with
  | case1 => exact fun c hc => by cases hc
  | case2 a =>
    have ha := a.toNat_lt
    simp only [List.forall_mem_cons]
    exact ⟨digit64_mem (by omega), digit64_mem (by omega), fun c hc => by cases hc⟩
  | case3 a b =>
    have ha := a.toNat_lt
    have hb := b.toNat_lt
    simp only [List.forall_mem_cons]
    exact ⟨digit64_mem (by omega), digit64_mem (by omega), digit64_mem (by omega), fun c hc => by cases hc⟩
  | case4 a b c bs ih =>
    have ha := a.toNat_lt
    have hb := b.toNat_lt
    have hc := c.toNat_lt
    simp only [List.forall_mem_cons]
    exact ⟨digit64_mem (by omega), digit64_mem (by omega), digit64_mem (by omega), digit64_mem (by omega), ih⟩

end Verif
