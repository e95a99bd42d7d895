import WebrtcWinXp.FileTransfer.Repository
import WebrtcWinXp.Support.CString
import WebrtcWinXp.Support.SearchTree

/-!
# Comparisons of descriptors

The operators of `ResDescriptionBase`, `FileResDescription`, `ServerInfo` and
`TurnserverInfo`, and the comparison that sorts the packets of a transfer.

A result of `compare` that is returned as a boolean means that the strings
differ.
-/

namespace WebrtcWinXp.P2pData

open Support
open FileTransfer (DataChannelTransfer)

/-- `STLStringShaow::compare`. -/
def compareStr (s t : Str) : ℤ :=
  if s < t then -1 else if s = t then 0 else 1

inductive ResType where
  | Audio_Type
  | Video_Type
  | File_Type
  | File_Type_Shake_Pack
  | Text_Type
  | Empty_Type
  deriving DecidableEq, Repr

/-- A resource, with the public pointer to its guid. -/
structure ResDescriptionBase where
  type : ResType
  guid : Option Str
  deriving DecidableEq

namespace ResDescriptionBase

def less (x y : ResDescriptionBase) : Bool :=
  match x.guid, y.guid with
  | some guid, some guid' => compareStr guid guid' < 0
  | _, _ => false

def eq (x y : ResDescriptionBase) : Bool :=
  match x.guid, y.guid with
  | some guid, some guid' => compareStr guid guid' = 0
  | _, _ => false

def copy (x : ResDescriptionBase) : ResDescriptionBase :=
  ⟨x.type, some (x.guid.getD [])⟩

end ResDescriptionBase

/-- A file, with the public pointer to its path. -/
structure FileResDescription extends ResDescriptionBase where
  filepath : Option Str
  deriving DecidableEq

namespace FileResDescription

def less (x y : FileResDescription) : Bool :=
  x.toResDescriptionBase.less y.toResDescriptionBase

/-- `operator==`, unless it reads through a null pointer. -/
def eq? (x y : FileResDescription) : Option Bool :=
  if !x.toResDescriptionBase.eq y.toResDescriptionBase then some false
  else
    match x.filepath, y.filepath with
    | none, _ => some false
    | some _, none => none
    | some path, some path' => some (compareStr path path' ≠ 0)

def eq (x y : FileResDescription) : Bool := x.eq? y = some true

/-- The copy constructor that the compiler provides. -/
def copy (x : FileResDescription) : FileResDescription :=
  ⟨x.toResDescriptionBase.copy, x.filepath⟩

end FileResDescription

/-- A server.  Every constructor creates the private strings. -/
structure ServerInfo where
  address : Str
  port : Str
  username : Str
  combination : Str
  deriving DecidableEq

namespace ServerInfo

def less (x y : ServerInfo) : Bool := compareStr x.address y.address ≠ 0

def eq (x y : ServerInfo) : Bool :=
  compareStr x.address y.address = 0 && compareStr x.port y.port = 0 &&
    compareStr x.username y.username = 0 &&
    compareStr x.combination y.combination = 0

def copy (x : ServerInfo) : ServerInfo :=
  ⟨x.address, x.port, x.username, x.combination⟩

end ServerInfo

structure TurnserverInfo extends ServerInfo where
  password : Str
  realm : Str
  deriving DecidableEq

namespace TurnserverInfo

def less (x y : TurnserverInfo) : Bool := x.toServerInfo.less y.toServerInfo

def eq (x y : TurnserverInfo) : Bool :=
  x.toServerInfo.eq y.toServerInfo && compareStr x.password y.password = 0 &&
    compareStr x.realm y.realm = 0

def copy (x : TurnserverInfo) : TurnserverInfo :=
  ⟨x.toServerInfo.copy, x.password, x.realm⟩

end TurnserverInfo

def sortDataChannelTransferBase (value1 value2 : Option DataChannelTransfer) :
    Bool :=
  match value1 with
  | none => value2.isNone
  | some value1 =>
    match value2 with
    | some value2 => value1.packetIndex < value2.packetIndex
    | none => true

/-! ## Their laws -/

/-- What is asked of `==`, `<` and copies of the values in `S`. -/
structure ComparesLawfully {α : Type*} (eq less : α → α → Bool) (copy : α → α)
    (S : Set α) : Prop where
  refl : ∀ x ∈ S, eq x x
  symm : ∀ x ∈ S, ∀ y ∈ S, eq x y → eq y x
  trans : ∀ x ∈ S, ∀ y ∈ S, ∀ z ∈ S, eq x y → eq y z → eq x z
  copied : ∀ x ∈ S, eq x (copy x)
  ordered : StrictWeakOn less S
  exclusive : ∀ x ∈ S, ∀ y ∈ S, ¬(eq x y ∧ less x y)

@[simp] theorem compareStr_eq_zero {s t : Str} :
    compareStr s t = 0 ↔ s = t := by
  unfold compareStr
  split
  · next hlt => exact iff_of_false (by decide) (ne_of_lt hlt)
  · split <;> simp [*]

@[simp] theorem compareStr_neg {s t : Str} : compareStr s t < 0 ↔ s < t := by
  unfold compareStr
  split
  · next hlt => exact iff_of_true (by decide) hlt
  · split <;> simp [*]

theorem strictWeakOn_ne_iff {α ρ : Type*} {rank : α → ρ} {less : α → α → Bool}
    (hless : ∀ x y, less x y ↔ rank x ≠ rank y) {S : Set α} :
    StrictWeakOn less S ↔ ∀ x ∈ S, ∀ y ∈ S, rank x = rank y := by
  constructor
  · intro h x hx y hy
    by_contra hne
    have hxx := h.trans x hx y hy x hx ((hless x y).mpr hne)
      ((hless y x).mpr (Ne.symm hne))
    rw [h.irrefl x hx] at hxx
    cases hxx
  · intro h
    have hnone : ∀ x ∈ S, ∀ y ∈ S, less x y = false := by
      intro x hx y hy
      rw [← Bool.not_eq_true, hless, not_not]
      exact h x hx y hy
    refine ⟨fun x hx => hnone x hx x hx, ?_, ?_⟩
    · intro x hx y hy z hz hxy
      rw [hnone x hx y hy] at hxy
      cases hxy
    · intro x hx y hy z hz hxz
      rw [hnone x hx z hz] at hxz
      cases hxz

namespace ResDescriptionBase

theorem eq_iff {x y : ResDescriptionBase} :
    x.eq y ↔ x.guid = y.guid ∧ x.guid ≠ none := by
  unfold eq
  cases x.guid <;> cases y.guid <;> simp

theorem less_iff {x y : ResDescriptionBase} :
    x.less y ↔ ∃ guid guid', x.guid = some guid ∧ y.guid = some guid' ∧
      guid < guid' := by
  unfold less
  cases x.guid <;> cases y.guid <;> simp

theorem comparesLawfully_iff (S : Set ResDescriptionBase) :
    ComparesLawfully eq less copy S ↔ ∀ x ∈ S, x.guid ≠ none := by
  constructor
  · exact fun h x hx => (eq_iff.mp (h.refl x hx)).2
  intro hguid
  refine ⟨?_, ?_, ?_, ?_, ?_, ?_⟩
  · exact fun x hx => eq_iff.mpr ⟨rfl, hguid x hx⟩
  · intro x _ y hy hxy
    exact eq_iff.mpr ⟨(eq_iff.mp hxy).1.symm, hguid y hy⟩
  · intro x hx y _ z _ hxy hyz
    exact eq_iff.mpr ⟨(eq_iff.mp hxy).1.trans (eq_iff.mp hyz).1, hguid x hx⟩
  · intro x hx
    obtain ⟨guid, hsome⟩ := Option.ne_none_iff_exists'.mp (hguid x hx)
    exact eq_iff.mpr ⟨by simp [copy, hsome], hguid x hx⟩
  · refine ⟨?_, ?_, ?_⟩
    · intro x _
      rw [← Bool.not_eq_true, less_iff]
      rintro ⟨guid, guid', hx, hx', hlt⟩
      rw [hx] at hx'
      cases hx'
      exact lt_irrefl _ hlt
    · intro x _ y _ z _ hxy hyz
      obtain ⟨guid, guid', hx, hy, hlt⟩ := less_iff.mp hxy
      obtain ⟨guid₂, guid₃, hy', hz, hlt'⟩ := less_iff.mp hyz
      rw [hy] at hy'
      cases hy'
      exact less_iff.mpr ⟨guid, guid₃, hx, hz, hlt.trans hlt'⟩
    · intro x _ y hy z _ hxz
      obtain ⟨guid, guid₃, hx, hz, hlt⟩ := less_iff.mp hxz
      obtain ⟨guid', hy'⟩ := Option.ne_none_iff_exists'.mp (hguid y hy)
      rcases lt_or_ge guid guid' with hxy | hyx
      · exact .inl (less_iff.mpr ⟨guid, guid', hx, hy', hxy⟩)
      · exact .inr (less_iff.mpr
          ⟨guid', guid₃, hy', hz, lt_of_le_of_lt hyx hlt⟩)
  · rintro x _ y _ ⟨hxy, hless⟩
    obtain ⟨guid, guid', hx, hy, hlt⟩ := less_iff.mp hless
    have hsame := (eq_iff.mp hxy).1
    rw [hx, hy] at hsame
    cases hsame
    exact lt_irrefl _ hlt

end ResDescriptionBase

namespace FileResDescription

theorem not_eq_self (x : FileResDescription) : ¬x.eq x := by
  unfold eq eq?
  split
  · simp
  · cases x.filepath <;> simp

/-- No value is `==` to itself. -/
theorem comparesLawfully_iff (S : Set FileResDescription) :
    ComparesLawfully eq less copy S ↔ S = ∅ := by
  constructor
  · intro h
    exact Set.eq_empty_of_forall_notMem
      fun x hx => not_eq_self x (h.refl x hx)
  · rintro rfl
    exact ⟨by simp, by simp, by simp, by simp, ⟨by simp, by simp, by simp⟩,
      by simp⟩

end FileResDescription

theorem comparesLawfully_ne_iff {α ρ : Type*} {rank : α → ρ}
    {eq less : α → α → Bool} {copy : α → α} (heq : ∀ x y, eq x y ↔ x = y)
    (hless : ∀ x y, less x y ↔ rank x ≠ rank y) (hcopy : ∀ x, copy x = x)
    (S : Set α) :
    ComparesLawfully eq less copy S ↔ ∀ x ∈ S, ∀ y ∈ S, rank x = rank y := by
  constructor
  · exact fun h => (strictWeakOn_ne_iff hless).mp h.ordered
  intro hrank
  refine ⟨fun x _ => (heq x x).mpr rfl, ?_, ?_,
    fun x _ => (heq x _).mpr (hcopy x).symm,
    (strictWeakOn_ne_iff hless).mpr hrank, ?_⟩
  · exact fun x _ y _ hxy => (heq y x).mpr ((heq x y).mp hxy).symm
  · exact fun x _ y _ z _ hxy hyz =>
      (heq x z).mpr (((heq x y).mp hxy).trans ((heq y z).mp hyz))
  · rintro x _ y _ ⟨hxy, hdiffer⟩
    exact (hless x y).mp hdiffer (congrArg rank ((heq x y).mp hxy))

namespace ServerInfo

theorem eq_iff (x y : ServerInfo) : x.eq y ↔ x = y := by
  cases x
  cases y
  simp [eq, and_assoc]

theorem less_iff (x y : ServerInfo) : x.less y ↔ x.address ≠ y.address := by
  simp [less]

theorem comparesLawfully_iff (S : Set ServerInfo) :
    ComparesLawfully eq less copy S ↔
      ∀ x ∈ S, ∀ y ∈ S, x.address = y.address :=
  comparesLawfully_ne_iff eq_iff less_iff (fun _ => rfl) S

end ServerInfo

namespace TurnserverInfo

theorem eq_iff (x y : TurnserverInfo) : x.eq y ↔ x = y := by
  cases x
  cases y
  simp [eq, ServerInfo.eq_iff, and_assoc]

theorem less_iff (x y : TurnserverInfo) :
    x.less y ↔ x.address ≠ y.address :=
  ServerInfo.less_iff _ _

theorem comparesLawfully_iff (S : Set TurnserverInfo) :
    ComparesLawfully eq less copy S ↔
      ∀ x ∈ S, ∀ y ∈ S, x.address = y.address :=
  comparesLawfully_ne_iff eq_iff less_iff (fun _ => rfl) S

end TurnserverInfo

theorem strictWeakOn_sort_iff (S : Set (Option DataChannelTransfer)) :
    StrictWeakOn sortDataChannelTransferBase S ↔ none ∉ S := by
  constructor
  · intro h hnone
    exact absurd (h.irrefl none hnone) (by decide)
  intro hnone
  have hsome : ∀ x ∈ S, ∃ packet, x = some packet := fun x hx =>
    Option.ne_none_iff_exists'.mp (ne_of_mem_of_not_mem hx hnone)
  refine ⟨?_, ?_, ?_⟩
  · intro x hx
    obtain ⟨packet, rfl⟩ := hsome x hx
    simp [sortDataChannelTransferBase]
  · intro x hx y hy z hz hxy hyz
    obtain ⟨packet, rfl⟩ := hsome x hx
    obtain ⟨packet', rfl⟩ := hsome y hy
    obtain ⟨packet'', rfl⟩ := hsome z hz
    simp only [sortDataChannelTransferBase, decide_eq_true_eq,
      UInt32.lt_iff_toNat_lt] at hxy hyz ⊢
    exact hxy.trans hyz
  · intro x hx y hy z hz hxz
    obtain ⟨packet, rfl⟩ := hsome x hx
    obtain ⟨packet', rfl⟩ := hsome y hy
    obtain ⟨packet'', rfl⟩ := hsome z hz
    simp only [sortDataChannelTransferBase, decide_eq_true_eq,
      UInt32.lt_iff_toNat_lt] at hxz ⊢
    omega

/-- The laws hold on the resources that have a guid, on no file, on servers of
one address, and without the null pointer. -/
theorem descriptors_lawful_iff (resources : Set ResDescriptionBase)
    (files : Set FileResDescription) (servers : Set ServerInfo)
    (turnServers : Set TurnserverInfo)
    (packets : Set (Option DataChannelTransfer)) :
    (ComparesLawfully ResDescriptionBase.eq ResDescriptionBase.less
        ResDescriptionBase.copy resources ∧
      ComparesLawfully FileResDescription.eq FileResDescription.less
        FileResDescription.copy files ∧
      ComparesLawfully ServerInfo.eq ServerInfo.less ServerInfo.copy servers ∧
      ComparesLawfully TurnserverInfo.eq TurnserverInfo.less
        TurnserverInfo.copy turnServers ∧
      StrictWeakOn sortDataChannelTransferBase packets) ↔
    (∀ x ∈ resources, x.guid ≠ none) ∧ files = ∅ ∧
      (∀ x ∈ servers, ∀ y ∈ servers, x.address = y.address) ∧
      (∀ x ∈ turnServers, ∀ y ∈ turnServers, x.address = y.address) ∧
      none ∉ packets := by
  rw [ResDescriptionBase.comparesLawfully_iff,
    FileResDescription.comparesLawfully_iff,
    ServerInfo.comparesLawfully_iff, TurnserverInfo.comparesLawfully_iff,
    strictWeakOn_sort_iff]

/-- A file, two servers with different addresses, and the null pointer. -/
theorem not_descriptors_lawful :
    ¬ComparesLawfully FileResDescription.eq FileResDescription.less
        FileResDescription.copy {⟨⟨.File_Type, some []⟩, some []⟩} ∧
      ¬ComparesLawfully ServerInfo.eq ServerInfo.less ServerInfo.copy
        {⟨['a'], [], [], []⟩, ⟨['b'], [], [], []⟩} ∧
      ¬ComparesLawfully TurnserverInfo.eq TurnserverInfo.less
        TurnserverInfo.copy {⟨⟨['a'], [], [], []⟩, [], []⟩,
          ⟨⟨['b'], [], [], []⟩, [], []⟩} ∧
      ¬StrictWeakOn sortDataChannelTransferBase {none} := by
  refine ⟨fun h => ?_, fun h => ?_, fun h => ?_, fun h => ?_⟩
  · exact FileResDescription.not_eq_self _ (h.refl _ rfl)
  · have hcycle := h.ordered.trans ⟨['a'], [], [], []⟩ (by simp)
      ⟨['b'], [], [], []⟩ (by simp) ⟨['a'], [], [], []⟩ (by simp)
      (by decide) (by decide)
    exact absurd hcycle (by decide)
  · have hcycle := h.ordered.trans ⟨⟨['a'], [], [], []⟩, [], []⟩ (by simp)
      ⟨⟨['b'], [], [], []⟩, [], []⟩ (by simp) ⟨⟨['a'], [], [], []⟩, [], []⟩
      (by simp) (by decide) (by decide)
    exact absurd hcycle (by decide)
  · exact absurd (h.irrefl none rfl) (by decide)

end WebrtcWinXp.P2pData
