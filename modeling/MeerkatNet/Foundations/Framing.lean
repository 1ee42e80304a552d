import Mathlib.Tactic

/-!
# Length-prefixed frames

A frame is a four-byte big-endian length followed by that many bytes. The length
of the payload is truncated to 32 bits when it is written, so a payload of 2³²
bytes or more is announced shorter than it is. Reading works on the bytes that
have arrived so far: `none` means that the reader waits for more.
-/

namespace Framing

/-- `u32::to_be_bytes`. -/
def toBeBytes (w : UInt32) : List UInt8 :=
  [UInt8.ofNat (w.toNat / 2 ^ 24), UInt8.ofNat (w.toNat / 2 ^ 16),
    UInt8.ofNat (w.toNat / 2 ^ 8), UInt8.ofNat w.toNat]

/-- `u32::from_be_bytes`, on the four bytes that were read. -/
def ofBeBytes : List UInt8 → UInt32
  | [a, b, c, d] =>
    UInt32.ofNat (a.toNat * 2 ^ 24 + b.toNat * 2 ^ 16 + c.toNat * 2 ^ 8 + d.toNat)
  | _ => 0

@[simp] theorem length_toBeBytes (w : UInt32) : (toBeBytes w).length = 4 := rfl

@[simp] theorem ofBeBytes_toBeBytes (w : UInt32) : ofBeBytes (toBeBytes w) = w := by
  have hw : w.toNat < 2 ^ 32 := w.toNat_lt
  apply UInt32.toNat_inj.mp
  simp only [ofBeBytes, toBeBytes, UInt8.toNat_ofNat', UInt32.toNat_ofNat']
  omega

/-- A frame: the truncated length, then the payload. -/
def frame (data : List UInt8) : List UInt8 :=
  toBeBytes (UInt32.ofNat data.length) ++ data

/-- `read_exact` of `n` bytes from what has arrived. -/
def readExact (n : ℕ) (arrived : List UInt8) : Option (List UInt8 × List UInt8) :=
  if n ≤ arrived.length then some (arrived.take n, arrived.drop n) else none

theorem readExact_eq_some {n : ℕ} {arrived data rest : List UInt8} :
    readExact n arrived = some (data, rest) ↔ arrived = data ++ rest ∧ data.length = n := by
  unfold readExact
  constructor
  · intro h
    split_ifs at h with hn
    cases h
    exact ⟨(List.take_append_drop n arrived).symm, by simp [hn]⟩
  · rintro ⟨rfl, rfl⟩
    simp

/-- Read one frame: four length bytes, then the announced number of bytes. -/
def readFrame (arrived : List UInt8) : Option (List UInt8 × List UInt8) :=
  (readExact 4 arrived).bind fun header => readExact (ofBeBytes header.1).toNat header.2

theorem readFrame_eq_some {arrived data rest : List UInt8} :
    readFrame arrived = some (data, rest) ↔
      ∃ header, header.length = 4 ∧ data.length = (ofBeBytes header).toNat ∧
        arrived = header ++ (data ++ rest) := by
  simp only [readFrame, Option.bind_eq_some_iff, Prod.exists, readExact_eq_some]
  constructor
  · rintro ⟨header, body, ⟨rfl, hheader⟩, rfl, hdata⟩
    exact ⟨header, hheader, hdata, rfl⟩
  · rintro ⟨header, hheader, hdata, rfl⟩
    exact ⟨header, data ++ rest, ⟨rfl, hheader⟩, rfl, hdata⟩

/-- Bytes that arrive later do not change a frame that was complete. -/
theorem readFrame_append {arrived data rest : List UInt8} (more : List UInt8)
    (h : readFrame arrived = some (data, rest)) :
    readFrame (arrived ++ more) = some (data, rest ++ more) := by
  obtain ⟨header, hheader, hdata, rfl⟩ := readFrame_eq_some.mp h
  exact readFrame_eq_some.mpr ⟨header, hheader, hdata, by simp⟩

/-- Below 2³² bytes the announced length is the true one. -/
theorem readFrame_frame {data : List UInt8} (h : data.length < 2 ^ 32) (rest : List UInt8) :
    readFrame (frame data ++ rest) = some (data, rest) := by
  refine readFrame_eq_some.mpr ⟨toBeBytes (UInt32.ofNat data.length), rfl, ?_, ?_⟩
  · rw [ofBeBytes_toBeBytes, UInt32.toNat_ofNat', Nat.mod_eq_of_lt h]
  · simp [frame]

/-- A reader of a whole frame gets as many bytes as the truncated length announces. -/
theorem readFrame_frame_truncated (data : List UInt8) :
    readFrame (frame data) =
      some (data.take (data.length % 2 ^ 32), data.drop (data.length % 2 ^ 32)) := by
  refine readFrame_eq_some.mpr ⟨toBeBytes (UInt32.ofNat data.length), rfl, ?_, ?_⟩
  · rw [ofBeBytes_toBeBytes, UInt32.toNat_ofNat']
    exact List.length_take_of_le (Nat.mod_le _ _)
  · rw [List.take_append_drop, frame]

/-- Whatever the length, a reader of a cut-off frame gets a beginning of the payload. -/
theorem readFrame_of_isPrefix {arrived data payload rest : List UInt8}
    (hcut : arrived <+: frame payload) (h : readFrame arrived = some (data, rest)) :
    data <+: payload := by
  obtain ⟨header, hheader, -, rfl⟩ := readFrame_eq_some.mp h
  obtain ⟨more, hmore⟩ := hcut
  have hsplit : header ++ (data ++ (rest ++ more)) =
      toBeBytes (UInt32.ofNat payload.length) ++ payload := by
    simpa [frame] using hmore
  obtain ⟨-, hdata⟩ := List.append_inj hsplit (by simp [hheader])
  exact ⟨rest ++ more, hdata⟩

/-- A proper beginning of a frame below 2³² bytes leaves the reader waiting. -/
theorem readFrame_eq_none_of_isPrefix {arrived payload : List UInt8}
    (hpayload : payload.length < 2 ^ 32) (hcut : arrived <+: frame payload)
    (hproper : arrived ≠ frame payload) : readFrame arrived = none := by
  by_contra hne
  obtain ⟨⟨data, rest⟩, h⟩ := Option.ne_none_iff_exists'.mp hne
  obtain ⟨more, hmore⟩ := hcut
  have hwhole := readFrame_append more h
  rw [hmore, ← List.append_nil (frame payload), readFrame_frame hpayload] at hwhole
  have hnil : rest ++ more = [] := (Prod.mk.inj (Option.some.inj hwhole)).2.symm
  apply hproper
  rw [← hmore, (List.append_eq_nil_iff.mp hnil).2, List.append_nil]

/-- A reader that gets the whole payload out of a cut-off frame was given all of it, and its length
was not truncated. -/
theorem eq_frame_of_readFrame {arrived payload rest : List UInt8}
    (hcut : arrived <+: frame payload) (h : readFrame arrived = some (payload, rest)) :
    arrived = frame payload ∧ payload.length < 2 ^ 32 := by
  obtain ⟨header, hheader, hlen, rfl⟩ := readFrame_eq_some.mp h
  refine ⟨?_, hlen ▸ UInt32.toNat_lt _⟩
  apply hcut.eq_of_length_le
  simp only [frame, List.length_append, length_toBeBytes, hheader]
  omega

end Framing
