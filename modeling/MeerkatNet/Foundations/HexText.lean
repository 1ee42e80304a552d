import MeerkatNet.Foundations.JsonText

/-!
# Padded hexadecimal

A number in lower-case hexadecimal with leading zeros. Leading zeros do not change
the value, so the text determines the number.
-/

namespace HexText

open JsonText

/-- `format!` with the flags `0`, a width and `x`. -/
def paddedHex (width n : ℕ) : String :=
  String.ofList (List.replicate (width - (Nat.toDigits 16 n).length) '0' ++ Nat.toDigits 16 n)

/-- The value of a text of hexadecimal digits. -/
def hexRead (text : List Char) : ℕ := text.foldl (fun n c => 16 * n + hexValue c) 0

theorem hexValue_digitChar : ∀ n < 16, hexValue n.digitChar = n := by decide

theorem hexRead_toDigits (n : ℕ) : hexRead (Nat.toDigits 16 n) = n := by
  induction n using Nat.strong_induction_on with
  | _ n ih =>
    rw [Nat.toDigits_eq_if (by norm_num)]
    split_ifs with hn
    · simp [hexRead, hexValue_digitChar n hn]
    · have hread := ih (n / 16) (by omega)
      have hdigit := hexValue_digitChar (n % 16) (Nat.mod_lt _ (by norm_num))
      simp only [hexRead] at hread
      simp only [hexRead, List.foldl_append, hread, List.foldl_cons, List.foldl_nil, hdigit]
      omega

theorem hexRead_replicate_zero (k : ℕ) (text : List Char) :
    hexRead (List.replicate k '0' ++ text) = hexRead text := by
  induction k with
  | zero => rfl
  | succ k ih => exact ih

theorem hexRead_paddedHex (width n : ℕ) : hexRead (paddedHex width n).toList = n := by
  rw [paddedHex, String.toList_ofList, hexRead_replicate_zero, hexRead_toDigits]

theorem paddedHex_injective (width : ℕ) : Function.Injective (paddedHex width) := by
  intro n m h
  have hread := hexRead_paddedHex width n
  rw [h, hexRead_paddedHex] at hread
  exact hread.symm

def hexDigits : List Char := "0123456789abcdef".toList

theorem digitChar_mem_hexDigits : ∀ n < 16, n.digitChar ∈ hexDigits := by decide

theorem toDigits_subset (n : ℕ) : Nat.toDigits 16 n ⊆ hexDigits := by
  induction n using Nat.strong_induction_on with
  | _ n ih =>
    rw [Nat.toDigits_eq_if (by norm_num)]
    split_ifs with hn
    · simpa using digitChar_mem_hexDigits n hn
    · have hdigit := digitChar_mem_hexDigits (n % 16) (Nat.mod_lt _ (by norm_num))
      rw [List.append_subset]
      exact ⟨ih (n / 16) (by omega), by simpa using hdigit⟩

theorem paddedHex_subset (width n : ℕ) : (paddedHex width n).toList ⊆ hexDigits := by
  rw [paddedHex, String.toList_ofList, List.append_subset]
  refine ⟨?_, toDigits_subset n⟩
  intro c hc
  rw [(List.mem_replicate.mp hc).2]
  decide

end HexText
