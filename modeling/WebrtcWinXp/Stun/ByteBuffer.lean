import WebrtcWinXp.Support.Bytes

/-!
# The network-order byte buffer

`rtc::ByteBuffer` as the list of its unread bytes.  Reads and `consume`
return the rest of the buffer and fail when it is too short; writes produce
the bytes that are appended.
-/

namespace WebrtcWinXp.Stun

open Support

/-- The unread bytes of an `rtc::ByteBuffer` in network byte order. -/
abbrev ByteBuffer := List UInt8

namespace ByteBuffer

/-- `ReadBytes`, and `ReadString` into an empty string. -/
def readBytes (len : ℕ) (buf : ByteBuffer) :
    Option (List UInt8 × ByteBuffer) :=
  if len > buf.length then none
  else some (buf.take len, buf.drop len)

/-- `ReadBytes` into an array of `len` bytes. -/
def readOctets (len : ℕ) (buf : ByteBuffer) :
    Option (Octets len × ByteBuffer) :=
  if h : len > buf.length then none
  else some (⟨buf.take len, by simp; omega⟩, buf.drop len)

def consume (size : ℕ) (buf : ByteBuffer) : Option ByteBuffer :=
  if size > buf.length then none
  else some (buf.drop size)

/-- The `len`-byte network-order reads: the bytes, turned into a number by
`ofNat`. -/
def readUnsigned {τ : Type} (len : ℕ) (ofNat : ℕ → τ) (buf : ByteBuffer) :
    Option (τ × ByteBuffer) := do
  let (bs, buf) ← readBytes len buf
  some (ofNat (ofBE bs), buf)

def readUInt8 : ByteBuffer → Option (UInt8 × ByteBuffer) :=
  readUnsigned 1 UInt8.ofNat

def readUInt16 : ByteBuffer → Option (UInt16 × ByteBuffer) :=
  readUnsigned 2 UInt16.ofNat

def readUInt32 : ByteBuffer → Option (UInt32 × ByteBuffer) :=
  readUnsigned 4 UInt32.ofNat

def readUInt64 : ByteBuffer → Option (UInt64 × ByteBuffer) :=
  readUnsigned 8 UInt64.ofNat

def writeUInt8 (v : UInt8) : List UInt8 := toBE 1 v.toNat

def writeUInt16 (v : UInt16) : List UInt8 := toBE 2 v.toNat

def writeUInt32 (v : UInt32) : List UInt8 := toBE 4 v.toNat

def writeUInt64 (v : UInt64) : List UInt8 := toBE 8 v.toNat

@[simp] theorem writeUInt8_length (v : UInt8) :
    (writeUInt8 v).length = 1 := toBE_length _ _

@[simp] theorem writeUInt16_length (v : UInt16) :
    (writeUInt16 v).length = 2 := toBE_length _ _

@[simp] theorem writeUInt32_length (v : UInt32) :
    (writeUInt32 v).length = 4 := toBE_length _ _

@[simp] theorem writeUInt64_length (v : UInt64) :
    (writeUInt64 v).length = 8 := toBE_length _ _

/-! ## Reads as splits of the buffer -/

variable {buf rest bs : ByteBuffer}

theorem readBytes_eq_some_iff {len : ℕ} :
    readBytes len buf = some (bs, rest) ↔
      buf = bs ++ rest ∧ bs.length = len := by
  unfold readBytes
  constructor
  · intro h
    split at h
    · cases h
    · cases h
      exact ⟨(List.take_append_drop len buf).symm, by simp; omega⟩
  · rintro ⟨rfl, rfl⟩
    simp

theorem readOctets_eq_some_iff {len : ℕ} {octets : Octets len} :
    readOctets len buf = some (octets, rest) ↔ buf = octets.1 ++ rest := by
  obtain ⟨bs, hbs⟩ := octets
  unfold readOctets
  constructor
  · intro h
    split at h
    · cases h
    · simp only [Option.some.injEq, Prod.mk.injEq, Subtype.mk.injEq] at h
      obtain ⟨rfl, rfl⟩ := h
      exact (List.take_append_drop len buf).symm
  · rintro rfl
    subst hbs
    simp

@[simp] theorem readOctets_append {len : ℕ} (octets : Octets len)
    (rest : ByteBuffer) :
    readOctets len (octets.1 ++ rest) = some (octets, rest) :=
  readOctets_eq_some_iff.mpr rfl

theorem consume_eq_some_iff {size : ℕ} :
    consume size buf = some rest ↔
      ∃ skipped, buf = skipped ++ rest ∧ skipped.length = size := by
  unfold consume
  constructor
  · intro h
    split at h
    · cases h
    · cases h
      exact ⟨buf.take size, (List.take_append_drop size buf).symm,
        by simp; omega⟩
  · rintro ⟨skipped, rfl, rfl⟩
    simp

theorem consume_eq_none_iff {size : ℕ} :
    consume size buf = none ↔ buf.length < size := by
  simp [consume]

@[simp] theorem readBytes_append (xs rest : ByteBuffer) :
    readBytes xs.length (xs ++ rest) = some (xs, rest) :=
  readBytes_eq_some_iff.mpr ⟨rfl, rfl⟩

theorem readUnsigned_eq_some_iff {τ : Type} {len : ℕ} {ofNat : ℕ → τ}
    (toNat : τ → ℕ) (hlt : ∀ v, toNat v < 256 ^ len)
    (hofNat : ∀ v, ofNat (toNat v) = v)
    (htoNat : ∀ k < 256 ^ len, toNat (ofNat k) = k) {v : τ} :
    readUnsigned len ofNat buf = some (v, rest) ↔
      buf = toBE len (toNat v) ++ rest := by
  simp only [readUnsigned, Option.bind_eq_bind, Option.bind_eq_some_iff,
    Prod.exists, readBytes_eq_some_iff, Option.some.injEq, Prod.mk.injEq]
  constructor
  · rintro ⟨bs, _, ⟨rfl, rfl⟩, rfl, rfl⟩
    rw [htoNat _ (ofBE_lt bs), toBE_ofBE]
  · rintro rfl
    refine ⟨toBE len (toNat v), rest, ⟨rfl, toBE_length _ _⟩, ?_, rfl⟩
    rw [ofBE_toBE, Nat.mod_eq_of_lt (hlt v), hofNat]

theorem readUInt8_eq_some_iff {v : UInt8} :
    readUInt8 buf = some (v, rest) ↔ buf = writeUInt8 v ++ rest :=
  readUnsigned_eq_some_iff UInt8.toNat (fun v => v.toNat_lt)
    (fun _ => UInt8.ofNat_toNat) fun _ hk => UInt8.toNat_ofNat_of_lt' hk

theorem readUInt16_eq_some_iff {v : UInt16} :
    readUInt16 buf = some (v, rest) ↔ buf = writeUInt16 v ++ rest :=
  readUnsigned_eq_some_iff UInt16.toNat (fun v => v.toNat_lt)
    (fun _ => UInt16.ofNat_toNat) fun _ hk => UInt16.toNat_ofNat_of_lt' hk

theorem readUInt32_eq_some_iff {v : UInt32} :
    readUInt32 buf = some (v, rest) ↔ buf = writeUInt32 v ++ rest :=
  readUnsigned_eq_some_iff UInt32.toNat (fun v => v.toNat_lt)
    (fun _ => UInt32.ofNat_toNat) fun _ hk => UInt32.toNat_ofNat_of_lt' hk

theorem readUInt64_eq_some_iff {v : UInt64} :
    readUInt64 buf = some (v, rest) ↔ buf = writeUInt64 v ++ rest :=
  readUnsigned_eq_some_iff UInt64.toNat (fun v => v.toNat_lt)
    (fun _ => UInt64.ofNat_toNat) fun _ hk => UInt64.toNat_ofNat_of_lt' hk

theorem writeUInt16_ofNat_ofBE (h : bs.length = 2) :
    writeUInt16 (UInt16.ofNat (ofBE bs)) = bs :=
  toBE_toNat_ofNat_ofBE (fun _ hk => UInt16.toNat_ofNat_of_lt' hk) h

theorem writeUInt32_ofNat_ofBE (h : bs.length = 4) :
    writeUInt32 (UInt32.ofNat (ofBE bs)) = bs :=
  toBE_toNat_ofNat_ofBE (fun _ hk => UInt32.toNat_ofNat_of_lt' hk) h

theorem writeUInt64_ofNat_ofBE (h : bs.length = 8) :
    writeUInt64 (UInt64.ofNat (ofBE bs)) = bs :=
  toBE_toNat_ofNat_ofBE (fun _ hk => UInt64.toNat_ofNat_of_lt' hk) h

@[simp] theorem readUInt8_append (v : UInt8) (rest : ByteBuffer) :
    readUInt8 (writeUInt8 v ++ rest) = some (v, rest) :=
  readUInt8_eq_some_iff.mpr rfl

@[simp] theorem readUInt16_append (v : UInt16) (rest : ByteBuffer) :
    readUInt16 (writeUInt16 v ++ rest) = some (v, rest) :=
  readUInt16_eq_some_iff.mpr rfl

@[simp] theorem readUInt32_append (v : UInt32) (rest : ByteBuffer) :
    readUInt32 (writeUInt32 v ++ rest) = some (v, rest) :=
  readUInt32_eq_some_iff.mpr rfl

@[simp] theorem readUInt64_append (v : UInt64) (rest : ByteBuffer) :
    readUInt64 (writeUInt64 v ++ rest) = some (v, rest) :=
  readUInt64_eq_some_iff.mpr rfl

theorem writeUInt16_append_inj {v w : UInt16} {xs ys : List UInt8}
    (h : writeUInt16 v ++ xs = writeUInt16 w ++ ys) : v = w ∧ xs = ys := by
  have hread := congrArg readUInt16 h
  simpa using hread

end ByteBuffer

end WebrtcWinXp.Stun
