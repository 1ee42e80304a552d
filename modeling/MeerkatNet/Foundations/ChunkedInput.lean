import MeerkatNet.Foundations.Framing

/-!
# Input in chunks

A stream that hands out its bytes in chunks and then ends. Reading a given number of
bytes takes whole chunks and splits the last one; it fails when the stream ends first.
How the bytes are cut into chunks makes no difference to what is read.
-/

namespace Framing

/-- `read_exact` of `n` bytes: the bytes, or nothing at an early end, and the chunks left. -/
def readChunks : ℕ → List (List UInt8) → Option (List UInt8) × List (List UInt8)
  | 0, chunks => (some [], chunks)
  | _ + 1, [] => (none, [])
  | n + 1, chunk :: chunks =>
    if chunk.length ≤ n + 1 then
      let rest := readChunks (n + 1 - chunk.length) chunks
      (rest.1.map (chunk ++ ·), rest.2)
    else (some (chunk.take (n + 1)), chunk.drop (n + 1) :: chunks)

/-- The next bytes are read, wherever the chunks end. -/
theorem readChunks_of_flatten {n : ℕ} {chunks : List (List UInt8)} {data rest : List UInt8}
    (hbytes : chunks.flatten = data ++ rest) (hlen : data.length = n) :
    ∃ left, readChunks n chunks = (some data, left) ∧ left.flatten = rest := by
  induction chunks generalizing n data with
  | nil =>
    obtain ⟨rfl, rfl⟩ := List.append_eq_nil_iff.mp hbytes.symm
    subst n
    exact ⟨[], rfl, rfl⟩
  | cons chunk chunks ih =>
    cases n with
    | zero =>
      obtain rfl := List.eq_nil_of_length_eq_zero hlen
      exact ⟨chunk :: chunks, rfl, hbytes⟩
    | succ n =>
      rw [List.flatten_cons] at hbytes
      simp only [readChunks]
      split_ifs with hshort
      · -- the chunk is a beginning of the data, the others hold what is missing
        obtain ⟨more, rfl⟩ : ∃ more, data = chunk ++ more :=
          (List.prefix_of_prefix_length_le ⟨chunks.flatten, hbytes⟩ ⟨rest, rfl⟩
            (by omega)).imp fun _ h => h.symm
        rw [List.append_assoc, List.append_cancel_left_eq] at hbytes
        rw [List.length_append] at hlen
        obtain ⟨left, hread, hleft⟩ := ih hbytes (n := n + 1 - chunk.length) (by omega)
        exact ⟨left, by simp [hread], hleft⟩
      · obtain ⟨more, rfl⟩ : ∃ more, chunk = data ++ more :=
          (List.prefix_of_prefix_length_le ⟨rest, rfl⟩ ⟨chunks.flatten, hbytes⟩
            (by omega)).imp fun _ h => h.symm
        rw [List.append_assoc, List.append_cancel_left_eq] at hbytes
        exact ⟨more :: chunks, by simp [← hlen], by simpa using hbytes⟩

/-- A stream that ends before the last byte asked for is an error. -/
theorem readChunks_of_short {n : ℕ} {chunks : List (List UInt8)}
    (hshort : chunks.flatten.length < n) : (readChunks n chunks).1 = none := by
  induction chunks generalizing n with
  | nil =>
    obtain ⟨n, rfl⟩ : ∃ k, n = k + 1 := ⟨n - 1, by simp at hshort; omega⟩
    rfl
  | cons chunk chunks ih =>
    rw [List.flatten_cons, List.length_append] at hshort
    obtain ⟨n, rfl⟩ : ∃ k, n = k + 1 := ⟨n - 1, by omega⟩
    have hchunk : chunk.length ≤ n + 1 := by omega
    simp only [readChunks, if_pos hchunk]
    rw [ih (by omega), Option.map_none]

end Framing
