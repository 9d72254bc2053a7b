import QVPN.Structures.SocketData

/-!
# Equality of connection keys

Which addresses may meet in the maps without breaking what an unordered map relies on. Two
addresses are compared as far as the left one reaches, so a shorter one equals every address that
it begins, while the comparison the other way leaves the buffer. The laws hold for a set of
addresses, and for all keys made of them, exactly when none of them begins another.
-/

namespace QVPN

open Memory

/-- Comparing the addresses of a set decides equality of their bytes, and their keys obey the laws
of an unordered map. -/
structure ContainerLaws (addrs : Set NetAddr) : Prop where
  equality : ∀ a ∈ addrs, ∀ b ∈ addrs, ∃ res, a.operatorEq b = .ok res ∧ (res = true ↔ a.ip = b.ip)
  address : KeyLaws NetAddr.operatorEq NetAddr.toString addrs
  server : KeyLaws QVPNServerSocketData.operatorEq QVPNServerSocketData.toString
    {k | ∀ a ∈ k.addrs, a ∈ addrs}
  client : KeyLaws QVPNSocketData.operatorEq QVPNSocketData.toString {k | ∀ a ∈ k.addrs, a ∈ addrs}

/-- No address is the beginning of another one. -/
def PrefixFree (addrs : Set NetAddr) : Prop :=
  ∀ a ∈ addrs, ∀ b ∈ addrs, a.ip <+: b.ip → a.ip = b.ip

/-- Addresses are the same when their bytes are. -/
theorem NetAddr.ext_iff_ip {a b : NetAddr} : a = b ↔ a.ip = b.ip := by
  cases a
  cases b
  simp

/-- Comparing two addresses decides equality when neither begins the other, and only then. -/
theorem NetAddr.operatorEq_iff (a b : NetAddr) :
    a.operatorEq b = .ok (decide (a = b)) ↔
      (a.ip <+: b.ip → a.ip = b.ip) ∧ (b.ip <+: a.ip → b.ip = a.ip) := by
  have hdecide : decide (a = b) = decide (a.ip = b.ip) := decide_eq_decide.mpr NetAddr.ext_iff_ip
  rw [hdecide]
  exact compareFrom_eq_decide_iff a.ip b.ip

section PrefixFree

variable {addrs : Set NetAddr}

/-- Among prefix-free addresses the operator decides equality. -/
theorem PrefixFree.decides (h : PrefixFree addrs) {a b : NetAddr} (ha : a ∈ addrs)
    (hb : b ∈ addrs) : a.operatorEq b = .ok (decide (a = b)) :=
  (NetAddr.operatorEq_iff a b).mpr ⟨h a ha b hb, h b hb a ha⟩

/-- Server keys with prefix-free addresses are compared field by field. -/
theorem PrefixFree.server_decides (h : PrefixFree addrs) {k l : QVPNServerSocketData}
    (hk : ∀ a ∈ k.addrs, a ∈ addrs) (hl : ∀ a ∈ l.addrs, a ∈ addrs) :
    k.operatorEq l = .ok (decide (k = l)) := by
  have hclient := h.decides (hk k.clientLocalAddr (by simp [QVPNServerSocketData.addrs]))
    (hl l.clientLocalAddr (by simp [QVPNServerSocketData.addrs]))
  have hserver := h.decides (hk k.serverLocalAddr (by simp [QVPNServerSocketData.addrs]))
    (hl l.serverLocalAddr (by simp [QVPNServerSocketData.addrs]))
  have hremote := h.decides (hk k.remoteAddr (by simp [QVPNServerSocketData.addrs]))
    (hl l.remoteAddr (by simp [QVPNServerSocketData.addrs]))
  rw [QVPNServerSocketData.operatorEq, hclient, hserver, hremote]
  rw [andThen_decide (andThen_decide (andThen_decide (andThen_decide (andThen_decide
    (andThen_decide rfl)))))]
  apply congrArg Except.ok
  apply decide_eq_decide.mpr
  cases k
  cases l
  simp

/-- Client keys with prefix-free addresses are compared field by field. -/
theorem PrefixFree.client_decides (h : PrefixFree addrs) {k l : QVPNSocketData}
    (hk : ∀ a ∈ k.addrs, a ∈ addrs) (hl : ∀ a ∈ l.addrs, a ∈ addrs) :
    k.operatorEq l = .ok (decide (k = l)) := by
  have hlocal := h.decides (hk k.localAddr (by simp [QVPNSocketData.addrs]))
    (hl l.localAddr (by simp [QVPNSocketData.addrs]))
  have hremote := h.decides (hk k.remoteAddr (by simp [QVPNSocketData.addrs]))
    (hl l.remoteAddr (by simp [QVPNSocketData.addrs]))
  rw [QVPNSocketData.operatorEq, hlocal, hremote]
  rw [andThen_decide (andThen_decide (andThen_decide (andThen_decide (andThen_decide rfl))))]
  apply congrArg Except.ok
  apply decide_eq_decide.mpr
  cases k
  cases l
  simp

/-- Addresses of one size are prefix-free, so the tables may compare their keys by value. -/
theorem prefixFree_of_size {size : ℕ} (h : ∀ a ∈ addrs, a.getAddrSize = size) :
    PrefixFree addrs := by
  intro a ha b hb hprefix
  apply hprefix.eq_of_length
  have hsize := (h a ha).trans (h b hb).symm
  exact hsize

end PrefixFree

/-- The laws of the maps hold for exactly the prefix-free sets of addresses. -/
theorem containerLaws_iff (addrs : Set NetAddr) : ContainerLaws addrs ↔ PrefixFree addrs := by
  constructor
  · intro h a ha b hb hprefix
    obtain ⟨res, hres, hequal⟩ := h.equality a ha b hb
    rw [NetAddr.operatorEq, compareFrom_eq, if_pos hprefix, Except.ok.injEq] at hres
    exact hequal.mp hres.symm
  · intro h
    refine ⟨?_, ?_, ?_, ?_⟩
    · intro a ha b hb
      refine ⟨_, h.decides ha hb, ?_⟩
      rw [decide_eq_true_iff]
      exact NetAddr.ext_iff_ip
    · apply KeyLaws.of_decides
      intro a ha b hb
      exact h.decides ha hb
    · apply KeyLaws.of_decides
      intro k hk l hl
      exact h.server_decides hk hl
    · apply KeyLaws.of_decides
      intro k hk l hl
      exact h.client_decides hk hl

/-- The IPv4 wildcard address equals the default address of sixteen zero bytes, whose text is
another, and comparing them the other way round reads behind the four bytes. -/
theorem wildcard_breaks_containerLaws :
    NetAddr.operatorEq ⟨[0, 0, 0, 0]⟩ .default = .ok true ∧
    NetAddr.operatorEq .default ⟨[0, 0, 0, 0]⟩ = .error .outOfBounds ∧
    NetAddr.toString ⟨[0, 0, 0, 0]⟩ ≠ NetAddr.toString .default ∧
    ¬ ContainerLaws Set.univ := by
  refine ⟨by decide, by decide, by decide +kernel, ?_⟩
  intro h
  obtain ⟨res, hres, -⟩ := h.equality .default (Set.mem_univ _) ⟨[0, 0, 0, 0]⟩ (Set.mem_univ _)
  revert hres
  rw [show NetAddr.operatorEq .default ⟨[0, 0, 0, 0]⟩ = .error .outOfBounds by decide]
  intro hres
  cases hres

end QVPN
