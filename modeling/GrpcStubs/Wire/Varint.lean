import GrpcStubs.Bytes

set_option autoImplicit false

namespace GrpcStubs.Wire

def writeVarint (n : Nat) : Bytes :=
  if n < 128 then [.ofNat n] else .ofNat (n % 128 + 128) :: writeVarint (n / 128)
termination_by n

/-- Read a number of at most `room` bytes. The last byte that there is room for holds only the
    highest of the 64 bits. -/
def readVarintWithin : (room : Nat) → Bytes → Option (Nat × Bytes)
  | 0, _ => none
  | _ + 1, [] => none
  | room + 1, byte :: bytes =>
    if byte.toNat < 128 then
      if room = 0 ∧ 2 ≤ byte.toNat then none else some (byte.toNat, bytes)
    else
      (readVarintWithin room bytes).map fun (high, rest) => (byte.toNat - 128 + 128 * high, rest)

def readVarint (bytes : Bytes) : Option (Nat × Bytes) :=
  readVarintWithin 10 bytes

theorem readVarintWithin_length {room : Nat} {bytes rest : Bytes} {n : Nat}
    (h : readVarintWithin room bytes = some (n, rest)) : rest.length < bytes.length := by
  induction room generalizing bytes n with
  | zero => simp [readVarintWithin] at h
  | succ room ih =>
    cases bytes with
    | nil => simp [readVarintWithin] at h
    | cons byte bytes =>
      rw [readVarintWithin] at h
      split at h
      · split at h
        · simp at h
        · simp_all
      · obtain ⟨⟨high, r⟩, hr, he⟩ := Option.map_eq_some_iff.mp h
        simp only [Prod.mk.injEq] at he
        obtain ⟨-, rfl⟩ := he
        exact Nat.lt_succ_of_lt (ih hr)

theorem readVarint_length {bytes rest : Bytes} {n : Nat}
    (h : readVarint bytes = some (n, rest)) : rest.length < bytes.length :=
  readVarintWithin_length h

end GrpcStubs.Wire
