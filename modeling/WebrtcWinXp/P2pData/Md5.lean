import WebrtcWinXp.Support.BlockHash
import WebrtcWinXp.Support.Bytes

/-!
# MD5

`md5.cc` of `webrtc/base`: a context that takes a message in parts and pads it
at the end.  Whatever the parts, and whatever was in the input buffer before,
the digest is that of the whole message.
-/

namespace WebrtcWinXp.P2pData

open Support

/-! ## The transformation of one block -/

/-- The four words of a hash. -/
structure Hash where
  a : UInt32
  b : UInt32
  c : UInt32
  d : UInt32
  deriving DecidableEq

def f1 (x y z : UInt32) : UInt32 := z ^^^ (x &&& (y ^^^ z))

def f2 (x y z : UInt32) : UInt32 := f1 z x y

def f3 (x y z : UInt32) : UInt32 := x ^^^ y ^^^ z

def f4 (x y z : UInt32) : UInt32 := y ^^^ (x ||| ~~~z)

/-- `MD5STEP`: the new value of `w`. -/
def md5Step (f : UInt32 → UInt32 → UInt32 → UInt32) (w x y z data s : UInt32) :
    UInt32 :=
  let w := w + (f x y z + data)
  (w <<< s ||| w >>> (32 - s)) + x

/-- The steps of one round: the word of the block and the constant that are
added. -/
abbrev Round := List (ℕ × UInt32)

def round1 : Round :=
  [(0, 0xd76aa478), (1, 0xe8c7b756), (2, 0x242070db), (3, 0xc1bdceee),
    (4, 0xf57c0faf), (5, 0x4787c62a), (6, 0xa8304613), (7, 0xfd469501),
    (8, 0x698098d8), (9, 0x8b44f7af), (10, 0xffff5bb1), (11, 0x895cd7be),
    (12, 0x6b901122), (13, 0xfd987193), (14, 0xa679438e), (15, 0x49b40821)]

def round2 : Round :=
  [(1, 0xf61e2562), (6, 0xc040b340), (11, 0x265e5a51), (0, 0xe9b6c7aa),
    (5, 0xd62f105d), (10, 0x02441453), (15, 0xd8a1e681), (4, 0xe7d3fbc8),
    (9, 0x21e1cde6), (14, 0xc33707d6), (3, 0xf4d50d87), (8, 0x455a14ed),
    (13, 0xa9e3e905), (2, 0xfcefa3f8), (7, 0x676f02d9), (12, 0x8d2a4c8a)]

def round3 : Round :=
  [(5, 0xfffa3942), (8, 0x8771f681), (11, 0x6d9d6122), (14, 0xfde5380c),
    (1, 0xa4beea44), (4, 0x4bdecfa9), (7, 0xf6bb4b60), (10, 0xbebfbc70),
    (13, 0x289b7ec6), (0, 0xeaa127fa), (3, 0xd4ef3085), (6, 0x04881d05),
    (9, 0xd9d4d039), (12, 0xe6db99e5), (15, 0x1fa27cf8), (2, 0xc4ac5665)]

def round4 : Round :=
  [(0, 0xf4292244), (7, 0x432aff97), (14, 0xab9423a7), (5, 0xfc93a039),
    (12, 0x655b59c3), (3, 0x8f0ccc92), (10, 0xffeff47d), (1, 0x85845dd1),
    (8, 0x6fa87e4f), (15, 0xfe2ce6e0), (6, 0xa3014314), (13, 0x4e0811a1),
    (4, 0xf7537e82), (11, 0xbd3af235), (2, 0x2ad7d2bb), (9, 0xeb86d391)]

/-- Word `k` of a block. -/
def inputWord (input : List UInt8) (k : ℕ) : UInt32 :=
  UInt32.ofNat (ofLE ((input.drop (4 * k)).take 4))

/-- Sixteen steps, which take the words of the hash in turn and the shifts in
turn. -/
def md5Round (f : UInt32 → UInt32 → UInt32 → UInt32) (shifts : List UInt32)
    (round : Round) (input : List UInt8) (hash : Hash) : Hash :=
  (round.zip (List.replicate 4 shifts).flatten).foldl
    (fun hash step =>
      ⟨hash.d, md5Step f hash.a hash.b hash.c hash.d
        (inputWord input step.1.1 + step.1.2) step.2, hash.b, hash.c⟩) hash

def md5Transform (buf : Hash) (input : List UInt8) : Hash :=
  let hash := md5Round f1 [7, 12, 17, 22] round1 input buf
  let hash := md5Round f2 [5, 9, 14, 20] round2 input hash
  let hash := md5Round f3 [4, 11, 16, 23] round3 input hash
  let hash := md5Round f4 [6, 10, 15, 21] round4 input hash
  ⟨buf.a + hash.a, buf.b + hash.b, buf.c + hash.c, buf.d + hash.d⟩

structure MD5Context where
  buf : Hash
  bits0 : UInt32
  bits1 : UInt32
  input : List UInt8
  deriving DecidableEq

def initialHash : Hash := ⟨0x67452301, 0xefcdab89, 0x98badcfe, 0x10325476⟩

/-- `MD5Init`, which leaves the input buffer as it was. -/
def md5Init (input : Octets 64) : MD5Context := ⟨initialHash, 0, 0, input.1⟩

/-- One round of the loop of `MD5Update`. -/
def md5BlockStep (s : MD5Context × List UInt8) :
    Option (MD5Context × List UInt8) :=
  let (ctx, buf) := s
  if 64 ≤ buf.length then
    let input := overwrite ctx.input 0 (buf.take 64)
    some ({ ctx with
      input := input
      buf := md5Transform ctx.buf input }, buf.drop 64)
  else none

/-- The loop of `MD5Update`, and the bytes that remain after it. -/
def md5Blocks (ctx : MD5Context) (buf : List UInt8) : MD5Context :=
  let (ctx, buf) := finish md5BlockStep (fun s => s.2.length) (ctx, buf)
  { ctx with input := overwrite ctx.input 0 buf }

def md5Update (ctx : MD5Context) (buf : List UInt8) : MD5Context :=
  let t := ctx.bits0
  let bits0 := t + UInt32.ofNat buf.length <<< 3
  let carry : UInt32 := if bits0 < t then 1 else 0
  let bits1 := ctx.bits1 + carry + UInt32.ofNat (buf.length >>> 29)
  let ctx : MD5Context := { ctx with
    bits0 := bits0
    bits1 := bits1 }
  let t := (t >>> 3 &&& 0x3f).toNat
  if t ≠ 0 then
    if buf.length < 64 - t then
      { ctx with input := overwrite ctx.input t buf }
    else
      let input := overwrite ctx.input t (buf.take (64 - t))
      md5Blocks { ctx with
        input := input
        buf := md5Transform ctx.buf input } (buf.drop (64 - t))
  else md5Blocks ctx buf

def md5Final (ctx : MD5Context) : List UInt8 :=
  let count := (ctx.bits0 >>> 3 &&& 0x3f).toNat
  let input := overwrite ctx.input count [0x80]
  let padding := 64 - 1 - count
  let (buf, input) :=
    if padding < 8 then
      let input := overwrite input (count + 1) (List.replicate padding 0)
      (md5Transform ctx.buf input, overwrite input 0 (List.replicate 56 0))
    else
      (ctx.buf,
        overwrite input (count + 1) (List.replicate (padding - 8) 0))
  let input := overwrite input 56
    (toLE 4 ctx.bits0.toNat ++ toLE 4 ctx.bits1.toNat)
  let buf := md5Transform buf input
  toLE 4 buf.a.toNat ++ toLE 4 buf.b.toNat ++ toLE 4 buf.c.toNat ++
    toLE 4 buf.d.toNat

/-- The digest of a message that is given in one part. -/
def md5 (message : List UInt8) : List UInt8 :=
  md5Final (md5Update (md5Init ⟨List.replicate 64 0, rfl⟩) message)

example : md5 [0x61, 0x62, 0x63] =
    [0x90, 0x01, 0x50, 0x98, 0x3c, 0xd2, 0x4f, 0xb0, 0xd6, 0x96, 0x3f, 0x7d,
      0x28, 0xe1, 0x7f, 0x72] := by
  decide +kernel

/-! ## What a context holds -/

/-- The context after a message: the hash of its whole blocks, the bytes that
are left, and the number of its bits. -/
structure Holds (ctx : MD5Context) (message : List UInt8) : Prop where
  length : ctx.input.length = 64
  buf : (absorb 64 md5Transform (initialHash, message)).1 = ctx.buf
  input : (absorb 64 md5Transform (initialHash, message)).2 =
    ctx.input.take (message.length % 64)
  bits : ctx.bits0.toNat + 2 ^ 32 * ctx.bits1.toNat =
    8 * message.length % 2 ^ 64

theorem holds_md5Init (input : Octets 64) : Holds (md5Init input) [] where
  length := input.2
  buf := by rw [absorb_of_lt (by decide)]; rfl
  input := by rw [absorb_of_lt (by decide)]; rfl
  bits := rfl

variable {ctx : MD5Context} {message : List UInt8}

theorem Holds.waiting
    (h : Holds ctx message) :
    (ctx.bits0 >>> 3 &&& 0x3f).toNat = message.length % 64 := by
  have hvalue : (ctx.bits0 >>> 3 &&& 0x3f).toNat =
      ctx.bits0.toNat >>> 3 &&& 2 ^ 6 - 1 := by
    have hshift : (3 : UInt32).toNat % 32 = 3 := rfl
    have hmask : (0x3f : UInt32).toNat = 2 ^ 6 - 1 := rfl
    rw [UInt32.toNat_and, UInt32.toNat_shiftRight, hshift, hmask]
  have hbits := h.bits
  have hlow := ctx.bits0.toNat_lt
  rw [hvalue, Nat.and_two_pow_sub_one_eq_mod, Nat.shiftRight_eq_div_pow]
  omega

theorem take_overwrite {bytes data : List UInt8} {pos : ℕ}
    (h : pos ≤ bytes.length) :
    (overwrite bytes pos data).take (pos + data.length) =
      bytes.take pos ++ data := by
  rw [overwrite, ← List.append_assoc]
  exact List.take_left' (by simp [h])

theorem overwrite_to_end {bytes data : List UInt8} {pos : ℕ}
    (h : pos + data.length = bytes.length) :
    overwrite bytes pos data = bytes.take pos ++ data := by
  rw [overwrite, List.drop_eq_nil_of_le (Nat.le_of_eq h.symm), List.append_nil]

theorem lowers_md5BlockStep :
    Lowers md5BlockStep fun s => s.2.length := by
  rintro ⟨ctx, buf⟩ t h
  unfold md5BlockStep at h
  dsimp only at h
  split at h
  · rw [Option.some_inj] at h
    subst h
    dsimp only
    rw [List.length_drop]
    omega
  · cases h

variable {buf : List UInt8}

theorem md5Blocks_of_lt
    (h : buf.length < 64) :
    md5Blocks ctx buf = { ctx with input := overwrite ctx.input 0 buf } := by
  have hend : md5BlockStep (ctx, buf) = none := if_neg (Nat.not_le.mpr h)
  rw [md5Blocks, finish_of_eq_none hend]

theorem md5Blocks_of_ge
    (hinput : ctx.input.length = 64) (h : 64 ≤ buf.length) :
    md5Blocks ctx buf = md5Blocks { ctx with
      input := buf.take 64
      buf := md5Transform ctx.buf (buf.take 64) } (buf.drop 64) := by
  have hover : overwrite ctx.input 0 (buf.take 64) = buf.take 64 :=
    overwrite_to_end (by simp [hinput, h])
  have hround : md5BlockStep (ctx, buf) = some ({ ctx with
      input := buf.take 64
      buf := md5Transform ctx.buf (buf.take 64) }, buf.drop 64) := by
    unfold md5BlockStep
    dsimp only
    rw [if_pos h, hover]
  rw [md5Blocks, finish_of_eq_some lowers_md5BlockStep hround, ← md5Blocks]

/-- What a loop over the blocks leaves of a context. -/
structure Absorbs (ctx : MD5Context) (part : List UInt8) (ctx' : MD5Context) :
    Prop where
  length : ctx'.input.length = 64
  buf : ctx'.buf = (absorb 64 md5Transform (ctx.buf, part)).1
  input : ctx'.input.take (part.length % 64) =
    (absorb 64 md5Transform (ctx.buf, part)).2
  bits0 : ctx'.bits0 = ctx.bits0
  bits1 : ctx'.bits1 = ctx.bits1

theorem absorbs_md5Blocks
    (h : ctx.input.length = 64) : Absorbs ctx buf (md5Blocks ctx buf) := by
  induction hlength : buf.length using Nat.strongRecOn
    generalizing ctx buf with
  | ind length ih =>
    by_cases hlt : buf.length < 64
    · have habsorb : absorb 64 md5Transform (ctx.buf, buf) =
          (ctx.buf, buf) := absorb_of_lt hlt
      have hover : (overwrite ctx.input 0 buf).length = ctx.input.length :=
        length_overwrite (by omega)
      rw [md5Blocks_of_lt hlt]
      refine ⟨hover.trans h, by rw [habsorb], ?_, rfl, rfl⟩
      have htake : (overwrite ctx.input 0 buf).take (0 + buf.length) =
          ctx.input.take 0 ++ buf := take_overwrite (Nat.zero_le _)
      rw [habsorb, Nat.mod_eq_of_lt hlt]
      simpa using htake
    · have hge : 64 ≤ buf.length := Nat.not_lt.mp hlt
      have hshorter : (buf.drop 64).length < length := by
        rw [List.length_drop]
        omega
      have hblock : ({ ctx with
          input := buf.take 64
          buf := md5Transform ctx.buf (buf.take 64)
          } : MD5Context).input.length = 64 := by simp [hge]
      have hrest := ih _ hshorter hblock rfl
      have habsorb : absorb 64 md5Transform (ctx.buf, buf) =
          absorb 64 md5Transform
            (md5Transform ctx.buf (buf.take 64), buf.drop 64) :=
        absorb_of_ge (by decide) hge
      rw [md5Blocks_of_ge h hge]
      refine ⟨hrest.length, hrest.buf.trans (by rw [habsorb]), ?_,
        hrest.bits0, hrest.bits1⟩
      rw [habsorb, Nat.mod_eq_sub_mod hge, ← List.length_drop]
      exact hrest.input

theorem bits_md5Update (bits0 bits1 : UInt32) (length : ℕ) :
    let bits0' := bits0 + UInt32.ofNat length <<< 3
    let carry : UInt32 := if bits0' < bits0 then 1 else 0
    bits0'.toNat + 2 ^ 32 *
        (bits1 + carry + UInt32.ofNat (length >>> 29)).toNat =
      (bits0.toNat + 2 ^ 32 * bits1.toNat + 8 * length) % 2 ^ 64 := by
  intro bits0' carry
  have hshift : (UInt32.ofNat length <<< 3).toNat = 8 * length % 2 ^ 32 := by
    have hthree : (3 : UInt32).toNat % 32 = 3 := rfl
    rw [UInt32.toNat_shiftLeft, UInt32.toNat_ofNat', hthree,
      Nat.shiftLeft_eq]
    omega
  have hhigh : (UInt32.ofNat (length >>> 29)).toNat =
      length / 2 ^ 29 % 2 ^ 32 := by
    rw [UInt32.toNat_ofNat', Nat.shiftRight_eq_div_pow]
  have hlow : bits0'.toNat =
      (bits0.toNat + 8 * length % 2 ^ 32) % 2 ^ 32 := by
    rw [UInt32.toNat_add, hshift]
  have hcarry : carry.toNat = if bits0'.toNat < bits0.toNat then 1 else 0 := by
    simp only [carry, UInt32.lt_iff_toNat_lt]
    split <;> rfl
  have hbits0 := bits0.toNat_lt
  have hbits1 := bits1.toNat_lt
  have hsum : (bits1 + carry + UInt32.ofNat (length >>> 29)).toNat =
      ((bits1.toNat + carry.toNat) % 2 ^ 32 + length / 2 ^ 29 % 2 ^ 32) %
        2 ^ 32 := by
    rw [UInt32.toNat_add, hhigh, UInt32.toNat_add]
  rw [hsum, hcarry, hlow]
  split <;> omega

theorem Absorbs.holds {ctx' : MD5Context} {part : List UInt8}
    (h : Absorbs ctx part ctx')
    (heq : absorb 64 md5Transform (ctx.buf, part) =
      absorb 64 md5Transform (initialHash, message))
    (hbits : ctx.bits0.toNat + 2 ^ 32 * ctx.bits1.toNat =
      8 * message.length % 2 ^ 64) : Holds ctx' message where
  length := h.length
  buf := by rw [h.buf, heq]
  input := by
    have hleft := length_absorb md5Transform (show 0 < 64 by decide)
    rw [← heq, ← hleft initialHash message, ← heq, hleft]
    exact h.input.symm
  bits := by
    rw [h.bits0, h.bits1]
    exact hbits

theorem absorb_fill {buf : Hash} {input part : List UInt8} {waiting : ℕ}
    (hlength : input.length = 64) (hwaiting : waiting < 64)
    (hlong : 64 - waiting ≤ part.length) :
    absorb 64 md5Transform (buf, input.take waiting ++ part) =
      absorb 64 md5Transform
        (md5Transform buf (overwrite input waiting
          (part.take (64 - waiting))), part.drop (64 - waiting)) := by
  have htaken : (input.take waiting).length = waiting := by
    rw [List.length_take]
    omega
  have hfill : (part.take (64 - waiting)).length = 64 - waiting := by
    rw [List.length_take]
    omega
  have htake : (input.take waiting ++ part).take 64 =
      input.take waiting ++ part.take (64 - waiting) := by
    rw [List.take_append, htaken, List.take_of_length_le (by omega)]
  have hdrop : (input.take waiting ++ part).drop 64 =
      part.drop (64 - waiting) := by
    rw [List.drop_append, htaken, List.drop_eq_nil_of_le (by omega),
      List.nil_append]
  have hge : 64 ≤ (input.take waiting ++ part).length := by
    rw [List.length_append]
    omega
  rw [absorb_of_ge (by decide) hge, htake, hdrop,
    overwrite_to_end (by omega)]

theorem Holds.md5Update
    (h : Holds ctx message) (part : List UInt8) :
    Holds (md5Update ctx part) (message ++ part) := by
  have hlength := h.length
  have hbits := bits_md5Update ctx.bits0 ctx.bits1 part.length
  dsimp only at hbits
  rw [h.bits, Nat.mod_add_mod, ← Nat.mul_add, ← List.length_append] at hbits
  have happend := absorb_append md5Transform
    (show 0 < 64 by decide) initialHash message part
  rw [h.buf, h.input] at happend
  have htotal : (message ++ part).length % 64 =
      (message.length % 64 + part.length) % 64 := by
    rw [List.length_append, Nat.mod_add_mod]
  unfold P2pData.md5Update
  dsimp only
  rw [h.waiting]
  have hlt : message.length % 64 < 64 := Nat.mod_lt _ (by decide)
  revert hlt happend htotal
  generalize message.length % 64 = waiting
  intro happend htotal hlt
  have hwaiting : (ctx.input.take waiting).length = waiting := by
    rw [List.length_take]
    omega
  split
  swap
  · next hnone =>
      obtain rfl := not_not.mp hnone
      refine (absorbs_md5Blocks ?_).holds happend.symm hbits
      exact hlength
  split
  · next hshort =>
      have habsorb : absorb 64 md5Transform
          (ctx.buf, ctx.input.take waiting ++ part) =
            (ctx.buf, ctx.input.take waiting ++ part) := by
        refine absorb_of_lt ?_
        dsimp only
        rw [List.length_append]
        omega
      rw [habsorb] at happend
      have hfits : waiting + part.length ≤ ctx.input.length := by omega
      refine ⟨(length_overwrite hfits).trans hlength, by rw [happend], ?_,
        hbits⟩
      have hmod : (waiting + part.length) % 64 = waiting + part.length :=
        Nat.mod_eq_of_lt (by omega)
      have hle : waiting ≤ ctx.input.length := by omega
      rw [happend, htotal, hmod]
      exact (take_overwrite hle).symm
  · next hlong =>
      rw [absorb_fill hlength hlt (Nat.le_of_not_lt hlong)] at happend
      refine (absorbs_md5Blocks ?_).holds happend.symm hbits
      refine (length_overwrite ?_).trans hlength
      rw [List.length_take]
      omega

theorem Holds.foldl_md5Update
    (h : Holds ctx message) (parts : List (List UInt8)) :
    Holds (parts.foldl P2pData.md5Update ctx) (message ++ parts.flatten) := by
  induction parts generalizing ctx message with
  | nil => simpa using h
  | cons part parts ih =>
    rw [List.foldl_cons, List.flatten_cons, ← List.append_assoc]
    exact ih (h.md5Update part)

/-- Two buffers with the same bytes at the front. -/
structure SameFront (n : ℕ) (a b : List UInt8) : Prop where
  left : a.length = 64
  right : b.length = 64
  take : a.take n = b.take n

theorem SameFront.overwrite {n : ℕ} {a b : List UInt8} (h : SameFront n a b)
    (data : List UInt8) (hn : n + data.length ≤ 64) :
    SameFront (n + data.length) (overwrite a n data) (overwrite b n data) := by
  have ha := h.left
  have hb := h.right
  refine ⟨?_, ?_, ?_⟩
  · exact (length_overwrite (by omega)).trans ha
  · exact (length_overwrite (by omega)).trans hb
  · rw [take_overwrite (by omega), take_overwrite (by omega), h.take]

theorem SameFront.eq {a b : List UInt8} (h : SameFront 64 a b) : a = b := by
  have htake := h.take
  rwa [List.take_of_length_le h.left.le, List.take_of_length_le h.right.le]
    at htake

theorem Holds.md5Final_eq {ctx' : MD5Context}
    (h : Holds ctx message) (h' : Holds ctx' message) :
    md5Final ctx = md5Final ctx' := by
  have hbuf : ctx.buf = ctx'.buf := h.buf.symm.trans h'.buf
  have hbits := h.bits.trans h'.bits.symm
  have hlow := ctx.bits0.toNat_lt
  have hlow' := ctx'.bits0.toNat_lt
  have hbits0 : ctx.bits0 = ctx'.bits0 := UInt32.toNat_inj.mp (by omega)
  have hbits1 : ctx.bits1 = ctx'.bits1 := UInt32.toNat_inj.mp (by omega)
  have hfront : SameFront (message.length % 64) ctx.input ctx'.input :=
    ⟨h.length, h'.length, h.input.symm.trans h'.input⟩
  have hlt : message.length % 64 < 64 := Nat.mod_lt _ (by decide)
  unfold md5Final
  dsimp only
  rw [h.waiting, h'.waiting, ← hbuf, ← hbits0, ← hbits1]
  revert hlt hfront
  generalize message.length % 64 = count
  intro hfront hlt
  have hone : SameFront (count + 1) (overwrite ctx.input count [0x80])
      (overwrite ctx'.input count [0x80]) :=
    hfront.overwrite [0x80] (Nat.succ_le_of_lt hlt)
  have hlast : (toLE 4 ctx.bits0.toNat ++ toLE 4 ctx.bits1.toNat).length =
      8 := by
    simp
  split
  · next hfew =>
      have hpad := hone.overwrite (List.replicate (64 - 1 - count) 0)
        (by rw [List.length_replicate]; omega)
      rw [List.length_replicate] at hpad
      have hend : count + 1 + (64 - 1 - count) = 64 := by omega
      rw [hend] at hpad
      rw [hpad.eq]
  · next hmany =>
      have hpad := hone.overwrite (List.replicate (64 - 1 - count - 8) 0)
        (by rw [List.length_replicate]; omega)
      rw [List.length_replicate] at hpad
      have hend : count + 1 + (64 - 1 - count - 8) = 56 := by omega
      rw [hend] at hpad
      have hwhole := hpad.overwrite _ (Nat.le_of_eq (by rw [hlast]))
      rw [hlast] at hwhole
      rw [hwhole.eq]

theorem md5Final_foldl_md5Update (input : Octets 64)
    (parts : List (List UInt8)) :
    md5Final (parts.foldl md5Update (md5Init input)) = md5 parts.flatten :=
  ((holds_md5Init input).foldl_md5Update parts).md5Final_eq
    ((holds_md5Init _).md5Update _)

end WebrtcWinXp.P2pData
