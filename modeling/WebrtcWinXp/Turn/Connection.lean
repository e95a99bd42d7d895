import WebrtcWinXp.Support.SearchTree
import WebrtcWinXp.Stun.Attribute
import Mathlib.Data.List.Lex
import Mathlib.Data.Prod.Lex
import Mathlib.Order.Monotone.Basic

/-!
# Connections and their order

`TurnServer::Connection`, the key of the allocation map, and the comparisons
of `rtc::IPAddress` and `rtc::SocketAddress` that it is built from.

`Connection::operator<` holds when one of its three fields is smaller, whatever
the fields before it say.
-/

namespace WebrtcWinXp.Turn

open Support Stun

/-- `std::string::operator<`, and `memcmp` on arrays of one size. -/
def bytesLess (a b : List UInt8) : Bool :=
  decide (a.map UInt8.toNat < b.map UInt8.toNat)

/-- `IPAddress::operator<`. -/
def ipLess : IPAddress → IPAddress → Bool
  | .unspec, .unspec => false
  | .unspec, _ => true
  | _, .unspec => false
  | .v4 _, .v6 _ => true
  | .v6 _, .v4 _ => false
  | .v4 a, .v4 b => decide (ofBE a.1 < ofBE b.1)
  | .v6 a, .v6 b => bytesLess a.1 b.1

def ipIsUnspec (ip : IPAddress) : Bool := ip == .unspec

def ipIsAny : IPAddress → Bool
  | .unspec => false
  | .v4 addr => addr.1 == List.replicate 4 0
  | .v6 addr => addr.1 == List.replicate 16 0

/-- `rtc::SocketAddress` with its host name, which a resolved address may
lack. -/
structure HostAddress extends SocketAddress where
  hostname : List UInt8
  deriving DecidableEq

namespace HostAddress

def ofSocket (addr : SocketAddress) : HostAddress := ⟨addr, []⟩

def equalIPs (a b : HostAddress) : Bool :=
  a.ip == b.ip &&
    ((!ipIsAny a.ip && !ipIsUnspec a.ip) || a.hostname == b.hostname)

def equalPorts (a b : HostAddress) : Bool := a.port == b.port

/-- `SocketAddress::operator==`. -/
def eq (a b : HostAddress) : Bool := a.equalIPs b && a.equalPorts b

/-- `SocketAddress::operator<`. -/
def less (a b : HostAddress) : Bool :=
  if a.ip ≠ b.ip then ipLess a.ip b.ip
  else if (ipIsAny a.ip || ipIsUnspec a.ip) && a.hostname != b.hostname then
    bytesLess a.hostname b.hostname
  else decide (a.port < b.port)

end HostAddress

/-- `cricket::ProtocolType`. -/
inductive ProtocolType where
  | udp
  | tcp
  | ssltcp
  deriving DecidableEq, Repr

def ProtocolType.toNat : ProtocolType → ℕ
  | .udp => 0
  | .tcp => 1
  | .ssltcp => 2

/-- `TurnServer::Connection`.  Sockets are numbered. -/
structure Connection where
  src : HostAddress
  dst : HostAddress
  proto : ProtocolType
  socket : ℕ
  deriving DecidableEq

namespace Connection

/-- `operator==`, which ignores the socket. -/
def eq (a b : Connection) : Bool :=
  a.src.eq b.src && a.dst.eq b.dst && a.proto == b.proto

/-- `operator<`. -/
def less (a b : Connection) : Bool :=
  a.src.less b.src || a.dst.less b.dst ||
    decide (a.proto.toNat < b.proto.toNat)

end Connection

/-! ## Ranks of addresses -/

def ipRank : IPAddress → ℕ ×ₗ List ℕ
  | .unspec => toLex (0, [])
  | .v4 addr => toLex (1, [ofBE addr.1])
  | .v6 addr => toLex (2, addr.1.map UInt8.toNat)

theorem map_toNat_injective :
    Function.Injective (List.map UInt8.toNat) :=
  List.map_injective_iff.mpr fun _ _ h => UInt8.toNat_inj.mp h

theorem ipRank_injective : Function.Injective ipRank := by
  intro a b h
  have hpair := Prod.ext_iff.mp (toLex.injective h)
  cases a <;> cases b <;> simp_all [ipRank]
  · rename_i a b
    have hlen : a.1.length = b.1.length := by rw [a.2, b.2]
    apply Subtype.ext
    rw [← toBE_ofBE a.1, ← toBE_ofBE b.1, hlen, h]
  · exact Subtype.ext (map_toNat_injective h)

theorem ipLess_iff (a b : IPAddress) :
    ipLess a b = true ↔ ipRank a < ipRank b := by
  cases a <;> cases b <;>
    simp [ipLess, ipRank, Prod.Lex.toLex_lt_toLex, bytesLess,
      List.cons_lt_cons_iff]

namespace HostAddress

def hostRank (a : HostAddress) : List ℕ :=
  if ipIsAny a.ip || ipIsUnspec a.ip then a.hostname.map UInt8.toNat else []

abbrev Rank := (ℕ ×ₗ List ℕ) ×ₗ (List ℕ ×ₗ ℕ)

def rank (a : HostAddress) : Rank :=
  toLex (ipRank a.ip, toLex (a.hostRank, a.port.toNat))

theorem hostRank_eq_iff {a b : HostAddress} (h : a.ip = b.ip) :
    a.hostRank = b.hostRank ↔
      (ipIsAny a.ip || ipIsUnspec a.ip) = false ∨
        a.hostname = b.hostname := by
  unfold hostRank
  rw [← h]
  by_cases hany : (ipIsAny a.ip || ipIsUnspec a.ip) = true
  · rw [if_pos hany, if_pos hany, map_toNat_injective.eq_iff, hany]
    simp
  · rw [if_neg hany, if_neg hany]
    simp [hany]

theorem rank_eq_iff {a b : HostAddress} :
    a.rank = b.rank ↔
      a.ip = b.ip ∧ a.hostRank = b.hostRank ∧ a.port = b.port := by
  simp [rank, ipRank_injective.eq_iff, UInt16.toNat_inj]

theorem eq_iff (a b : HostAddress) :
    a.eq b = true ↔ a.rank = b.rank := by
  rw [rank_eq_iff]
  by_cases hip : a.ip = b.ip
  · rw [hostRank_eq_iff hip]
    simp [eq, equalIPs, equalPorts, hip]
  · simp [eq, equalIPs, hip]

theorem less_iff (a b : HostAddress) :
    a.less b = true ↔ a.rank < b.rank := by
  unfold less
  simp only [rank, Prod.Lex.toLex_lt_toLex]
  by_cases hip : a.ip = b.ip
  · have hhost := hostRank_eq_iff hip
    by_cases hany : (ipIsAny a.ip || ipIsUnspec a.ip) = true
    · by_cases hname : a.hostname = b.hostname
      · have heq : a.hostRank = b.hostRank := hhost.mpr (.inr hname)
        simp [hip, hname, heq, UInt16.lt_iff_toNat_lt]
      · have hne := map_toNat_injective.ne hname
        have hany' := hany
        rw [hip] at hany'
        simp [hip, hany', hname, hne, bytesLess, hostRank]
    · have heq : a.hostRank = b.hostRank :=
        hhost.mpr (.inl (by simpa using hany))
      rw [if_neg (by simpa using hip), if_neg (by simp [hany])]
      simp [hip, heq, UInt16.lt_iff_toNat_lt]
  · have hrank : ipRank a.ip ≠ ipRank b.ip := fun h =>
      hip (ipRank_injective h)
    simp [hip, hrank, ipLess_iff]

end HostAddress

namespace Connection

/-- The fields that are compared, of which none comes before another. -/
def rank (a : Connection) : HostAddress.Rank × HostAddress.Rank × ℕ :=
  (a.src.rank, a.dst.rank, a.proto.toNat)

theorem less_iff (a b : Connection) :
    a.less b = true ↔ ¬b.rank ≤ a.rank := by
  simp only [less, rank, Prod.mk_le_mk, not_and_or, not_le, Bool.or_eq_true,
    HostAddress.less_iff, decide_eq_true_eq, or_assoc]

theorem eq_iff (a b : Connection) :
    a.eq b = true ↔ a.rank = b.rank := by
  have hproto : a.proto = b.proto ↔ a.proto.toNat = b.proto.toNat := by
    cases a.proto <;> cases b.proto <;> simp [ProtocolType.toNat]
  simp [eq, rank, HostAddress.eq_iff, hproto, and_assoc]

/-- Connections of which one is at most the other in every field. -/
def Aligned (a b : Connection) : Prop :=
  a.rank ≤ b.rank ∨ b.rank ≤ a.rank

/-- Connections are equivalent for `operator<` exactly when `operator==`
holds. -/
theorem equivalent_iff (a b : Connection) :
    Equivalent less a b ↔ a.eq b = true := by
  unfold Equivalent
  rw [← Bool.not_eq_true, ← Bool.not_eq_true, less_iff, less_iff, not_not,
    not_not, eq_iff]
  exact ⟨fun h => le_antisymm h.2 h.1, fun h => ⟨h.ge, h.le⟩⟩

/-- `operator<` is a strict weak ordering of exactly the sets of connections
that are pairwise aligned. -/
theorem strictWeakOn_iff (S : Set Connection) :
    StrictWeakOn less S ↔ ∀ a ∈ S, ∀ b ∈ S, Aligned a b :=
  strictWeakOn_iff_comparable less_iff

end Connection

end WebrtcWinXp.Turn
