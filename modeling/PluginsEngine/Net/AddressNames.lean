/-
  File:      PluginsEngine/Net/AddressNames.lean
  Subject:   THE NAMES OF CONNECTIONS (SocketOperation::toString as the key of TcpServer's pool).

  A connection is kept in the pool under the text of its peer's address. What is printed can be
  parsed again (AddressText.lean), so no two endpoints share a text.

  * `canonical_injective` -- four numbers and a port are told from their text;
  * `ipToString_eq` -- every address prints as such a text: its bytes, and its port in host order;
  * `SameEndpoint`, `toString_eq_iff` -- equal texts are equal endpoints;
  * `connection_names_identify` -- and so an accepted connection is found under the names of its
    own endpoint alone.
-/
import PluginsEngine.Net.AddressText

namespace PluginsEngine

open Library

/-! ## 1. Names of endpoints -/

namespace SocketOperation

/-- **The text tells the numbers and the port**: two that print alike are parsed to one address. -/
theorem canonical_injective {a b c d a' b' c' d' : UInt8} {port port' : UInt16}
    (h : canonical a b c d port = canonical a' b' c' d' port') :
    a = a' ∧ b = b' ∧ c = c' ∧ d = d' ∧ port = port' := by
  have hparsed := toAddrIpv4_canonical a b c d port ⟨0, 0⟩
  rw [h, toAddrIpv4_canonical a' b' c' d' port'] at hparsed
  obtain ⟨haddr, hport⟩ := SocketAddr.mk.inj (Prod.mk.inj hparsed).2
  have hbytes := addrArray_addr32 a b c d 0
  rw [← haddr, addrArray_addr32 a' b' c' d' 0] at hbytes
  simp only [List.cons.injEq, and_true] at hbytes
  obtain ⟨hd, hc, hb, ha⟩ := hbytes
  have hnum : port'.toNat = port.toNat := by
    rw [← port_htons port', hport, port_htons]
  exact ⟨UInt8.toNat_inj.mp ha.symm, UInt8.toNat_inj.mp hb.symm, UInt8.toNat_inj.mp hc.symm,
    UInt8.toNat_inj.mp hd.symm, UInt16.toNat_inj.mp hnum.symm⟩

end SocketOperation

namespace SocketAddr

open SocketOperation

/-- `addrArray[i]`, as the byte it is. -/
def addrByte (addr : SocketAddr) (i : Nat) : UInt8 := UInt8.ofNat (addr.addrArray i)

theorem toNat_addrByte (addr : SocketAddr) (i : Nat) :
    (addr.addrByte i).toNat = addr.addrArray i := by
  have hle : addr.addrArray i ≤ 0xff := Nat.and_le_right
  exact UInt8.toNat_ofNat_of_lt' (Nat.lt_succ_of_le hle)

/-- The masked shifts of `ipToString` swap the bytes of the port, as `htons` does. -/
theorem toNat_htons_eq_swap (port : UInt16) :
    port.toNat <<< 8 &&& 0x00ffff ||| port.toNat >>> 8 = (htons port).toNat := by
  rw [toNat_htons, swap_eq port.toNat_lt]

/-- **Every address prints as a canonical text.** -/
theorem ipToString_eq (addr : SocketAddr) :
    addr.ipToString = canonical (addr.addrByte 0) (addr.addrByte 1) (addr.addrByte 2)
      (addr.addrByte 3) (htons addr.sin_port) := by
  simp only [ipToString, canonical, toNat_htons_eq_swap, toNat_addrByte]
  simp [List.range_succ_eq_map]

theorem htons_injective {p q : UInt16} (h : htons p = htons q) : p = q := by
  have hnum := congrArg UInt16.toNat h
  rw [toNat_htons, toNat_htons] at hnum
  have hp := p.toNat_lt
  have hq := q.toNat_lt
  exact UInt16.toNat_inj.mp (by omega)

/-- One endpoint: the same four bytes and the same port. -/
def SameEndpoint (a b : SocketAddr) : Prop :=
  (∀ i < 4, a.addrArray i = b.addrArray i) ∧ a.sin_port = b.sin_port

/-- **Names are equal exactly when the endpoints are.** -/
theorem toString_eq_iff (a b : SocketAddr) : a.toString = b.toString ↔ SameEndpoint a b := by
  unfold toString
  rw [ipToString_eq, ipToString_eq]
  constructor
  · intro h
    obtain ⟨h₀, h₁, h₂, h₃, hport⟩ := canonical_injective h
    have hbyte : ∀ i, a.addrByte i = b.addrByte i → a.addrArray i = b.addrArray i := by
      intro i heq
      rw [← toNat_addrByte, heq, toNat_addrByte]
    refine ⟨fun i hi => hbyte i ?_, htons_injective hport⟩
    match i, hi with
    | 0, _ => exact h₀
    | 1, _ => exact h₁
    | 2, _ => exact h₂
    | 3, _ => exact h₃
  · intro h
    have hbyte : ∀ i < 4, a.addrByte i = b.addrByte i := fun i hi =>
      congrArg UInt8.ofNat (h.1 i hi)
    rw [hbyte 0 (by omega), hbyte 1 (by omega), hbyte 2 (by omega), hbyte 3 (by omega), h.2]

end SocketAddr

/-! ## 2. The pool of the server -/

namespace TcpServer

/-- `haveConnect`: `connectPool.find(name) != connectPool.end()`. -/
def haveConnect (s : TcpServer) (name : Name) : Bool := decide (name ∈ s.connectPool)

theorem mem_newConnected_iff (s : TcpServer) (sockfd : Int) (addr : SocketAddr) (name : Name) :
    name ∈ (s.newConnected sockfd addr).2.connectPool ↔
      name ∈ s.connectPool ∨ name = addr.toString := by
  rw [(s.newConnected_law sockfd addr).pool, mem_insertNew]
  exact or_comm

/-- **Connection names do not collide.** Two addresses have one name exactly when their four bytes
    and their ports are equal; and after a connection from `a` is accepted, the pool has the name
    of `b` exactly if it had it before or `b` is the same endpoint. -/
theorem connection_names_identify (a b : SocketAddr) :
    (a.toString = b.toString ↔ a.SameEndpoint b) ∧
      ∀ (s : TcpServer) (sockfd : Int),
        (s.newConnected sockfd a).2.haveConnect b.toString = true ↔
          s.haveConnect b.toString = true ∨ a.SameEndpoint b := by
  refine ⟨SocketAddr.toString_eq_iff a b, fun s sockfd => ?_⟩
  unfold haveConnect
  rw [decide_eq_true_iff, decide_eq_true_iff, mem_newConnected_iff,
    ← SocketAddr.toString_eq_iff a b]
  exact or_congr_right eq_comm

end TcpServer

end PluginsEngine
