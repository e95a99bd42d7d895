import WebrtcWinXp.Support.Bytes

/-!
# Received buffers

A buffer is what a pointer and a size give: bytes can be read beyond its end,
where the memory holds something arbitrary.  Code that reads a buffer returns
the ranges it reads, so that a bound can be stated for each of them.
-/

namespace WebrtcWinXp.Support

/-- The memory from a pointer on, of which the first `size` bytes are the
buffer. -/
structure Buffer where
  byte : ℕ → UInt8
  size : ℕ

/-- A range that is read from a buffer. -/
structure Access where
  offset : ℕ
  length : ℕ
  deriving DecidableEq

namespace Buffer

/-- The bytes of a list, followed by arbitrary memory. -/
def ofList (bytes : List UInt8) (beyond : ℕ → UInt8) : Buffer where
  byte i := bytes.getD i (beyond i)
  size := bytes.length

def read (b : Buffer) (a : Access) : List UInt8 :=
  (List.range a.length).map fun i => b.byte (a.offset + i)

def Inside (b : Buffer) (a : Access) : Prop := a.offset + a.length ≤ b.size

instance (b : Buffer) (a : Access) : Decidable (b.Inside a) :=
  inferInstanceAs (Decidable (_ ≤ _))

@[simp] theorem length_read (b : Buffer) (a : Access) :
    (b.read a).length = a.length := by
  simp [read]

variable {beyond : ℕ → UInt8} {n : ℕ}

theorem read_ofList {bytes : List UInt8} {offset : ℕ}
    (h : offset + n ≤ bytes.length) :
    (ofList bytes beyond).read ⟨offset, n⟩ = (bytes.drop offset).take n := by
  apply List.ext_getElem
  · simp
    omega
  · intro i h₁ h₂
    rw [length_read] at h₁
    have hi : offset + i < bytes.length := by
      dsimp only at h₁
      omega
    simp [read, ofList, List.getElem?_eq_getElem hi]

theorem read_add (b : Buffer) (offset m n : ℕ) :
    b.read ⟨offset, m + n⟩ = b.read ⟨offset, m⟩ ++ b.read ⟨offset + m, n⟩ := by
  simp only [read, List.range_add, List.map_append, List.map_map]
  congr 2
  funext i
  rw [Function.comp_apply, Nat.add_assoc]

theorem read_succ (b : Buffer) (offset n : ℕ) :
    b.read ⟨offset, n + 1⟩ = b.byte offset :: b.read ⟨offset + 1, n⟩ := by
  rw [Nat.add_comm, read_add]
  rfl

variable {rest : List UInt8}

theorem read_ofList_head {field : List UInt8} (hn : field.length = n) :
    (ofList (field ++ rest) beyond).read ⟨0, n⟩ = field := by
  subst hn
  apply List.ext_getElem
  · simp
  · intro i h₁ h₂
    simp [read, ofList, List.getElem?_append_left h₂,
      List.getElem?_eq_getElem h₂]

theorem read_ofList_skip {head : List UInt8}
    {k offset : ℕ} (hk : head.length = k) :
    (ofList (head ++ rest) beyond).read ⟨offset + k, n⟩ =
      (ofList rest fun i => beyond (i + k)).read ⟨offset, n⟩ := by
  subst hk
  simp only [read, ofList]
  apply List.map_congr_left
  intro i _
  have hi : offset + head.length + i = head.length + (offset + i) := by
    omega
  have hbeyond : offset + head.length + i = offset + i + head.length := by
    omega
  rw [List.getD_eq_getElem?_getD, List.getD_eq_getElem?_getD, hi,
    List.getElem?_append_right (by omega), Nat.add_sub_cancel_left, ← hi,
    hbeyond]

theorem read_ofList_append {head field : List UInt8} {k : ℕ} (hk : head.length = k)
    (hn : field.length = n) :
    (ofList (head ++ (field ++ rest)) beyond).read ⟨k, n⟩ = field := by
  have hskip : (ofList (head ++ (field ++ rest)) beyond).read ⟨0 + k, n⟩ =
      (ofList (field ++ rest) fun i => beyond (i + k)).read ⟨0, n⟩ :=
    read_ofList_skip hk
  rw [Nat.zero_add] at hskip
  rw [hskip]
  exact read_ofList_head hn

end Buffer

/-- The first range lies in the second one. -/
def Access.Within (a b : Access) : Prop :=
  b.offset ≤ a.offset ∧ a.offset + a.length ≤ b.offset + b.length

instance (a b : Access) : Decidable (a.Within b) :=
  inferInstanceAs (Decidable (_ ∧ _))

/-- Bytes that are written to memory from an offset on. -/
structure Store where
  offset : ℕ
  bytes : List UInt8
  deriving DecidableEq

namespace Store

def access (w : Store) : Access := ⟨w.offset, w.bytes.length⟩

def apply (memory : ℕ → UInt8) (w : Store) : ℕ → UInt8 := fun i =>
  if w.offset ≤ i ∧ i < w.offset + w.bytes.length then
    w.bytes.getD (i - w.offset) 0
  else memory i

/-- The memory after some stores, the first one first. -/
def applyAll (memory : ℕ → UInt8) (stores : List Store) : ℕ → UInt8 :=
  stores.foldl apply memory

theorem applyAll_append (memory : ℕ → UInt8) (ws ws' : List Store) :
    applyAll memory (ws ++ ws') = applyAll (applyAll memory ws) ws' :=
  List.foldl_append

end Store

end WebrtcWinXp.Support
