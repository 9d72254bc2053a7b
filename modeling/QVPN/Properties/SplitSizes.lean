import QVPN.Driver.Split
import QVPN.Lib.Run

/-!
# The configuration of the split

A manager splits by two sizes that its setters change one at a time. Each setter compares its
argument with one bound and subtracts in the width of its type, and neither looks at what the other
one has established. The sizes stay in order along a list of calls exactly when every call either
is ignored or keeps the relation to the size that it does not set.
-/

namespace QVPN

open Memory

/-- A call of one of the two setters. -/
inductive SizeCall where
  | setDataMaxSize (size : UInt)
  | setDataSplitSize (size : UShort)
  deriving DecidableEq, Repr

namespace QVPNPacketManager

/-- What a call makes of a manager. -/
def configure (m : QVPNPacketManager) : SizeCall → QVPNPacketManager
  | .setDataMaxSize size => m.setDataMaxSize size
  | .setDataSplitSize size => m.setDataSplitSize size

/-- The manager after a list of calls, from the default sizes. -/
def configured (order : IterationOrder) (calls : List SizeCall) : QVPNPacketManager :=
  calls.foldl configure (initial order)

/-- The split size is positive and at most the maximum, and the maximum leaves room for the
headers. Then no split divides by zero, and every range fits a record with its headers. -/
structure SplitConfiguration (m : QVPNPacketManager) : Prop where
  positive : 0 < m.dataSplitSize.toNat
  ordered : m.dataSplitSize.toNat ≤ m.dataMaxSize.toNat
  bounded : m.dataMaxSize.toNat ≤ 65535 - dataMetaQvpnSize.toNat
  divides : ∀ size, m.ranges size ≠ .error .divisionByZero
  fits : ∀ size ranges, m.ranges size = .ok ranges → ∀ r ∈ ranges,
    r.2 - r.1 + dataMetaQvpnSize.toNat ≤ 65535

/-- A call that is ignored, or keeps the relation to the size that it does not set. -/
def Keeps (m : QVPNPacketManager) : SizeCall → Prop
  | .setDataMaxSize size => 65535 - dataMetaQvpnSize.toNat < size.toNat ∨
      m.dataSplitSize.toNat + dataMetaQvpnSize.toNat ≤ size.toNat
  | .setDataSplitSize size => m.dataMaxSize.toNat < size.toNat ∨ size ≠ 0

/-- The sizes are in order. -/
def Ordered (m : QVPNPacketManager) : Prop :=
  0 < m.dataSplitSize.toNat ∧ m.dataSplitSize.toNat ≤ m.dataMaxSize.toNat ∧
    m.dataMaxSize.toNat ≤ 65535 - dataMetaQvpnSize.toNat

/-- The loop makes no range that is longer than one part, whether or not it is clamped. -/
theorem splitRanges_le {stop split : ℤ} (hsplit : 0 ≤ split) {count i : ℕ}
    {startSplit endSplit : ℤ} (hend : endSplit ≤ startSplit + split) :
    ∀ r ∈ splitRanges stop split count i startSplit endSplit, r.2 - r.1 ≤ split := by
  induction count generalizing i startSplit endSplit with
  | zero =>
    intro r hr
    cases hr
  | succ count ih =>
    have hadvance : 0 ≤ (i : ℤ) * split := Int.mul_nonneg (Int.natCast_nonneg i) hsplit
    have hnext : (if stop < endSplit then stop else startSplit + i * split + split) ≤
        startSplit + i * split + split := by
      split <;> omega
    intro r hr
    rw [splitRanges, List.mem_cons] at hr
    cases hr with
    | inl hhead =>
      rw [hhead]
      dsimp only
      omega
    | inr htail => exact ih hnext r htail

/-- Sizes in order are a configuration that splits safely. -/
theorem splitConfiguration_iff_ordered (m : QVPNPacketManager) :
    m.SplitConfiguration ↔ m.Ordered := by
  constructor
  · intro h
    exact ⟨h.positive, h.ordered, h.bounded⟩
  · intro ⟨hpositive, hordered, hbounded⟩
    have hmeta := dataMetaQvpnSize_toNat
    have hne : m.dataSplitSize.toNat ≠ 0 := Nat.pos_iff_ne_zero.mp hpositive
    refine ⟨hpositive, hordered, hbounded, ?_, ?_⟩
    · intro size
      rw [ranges, if_neg hne]
      split <;> exact nofun
    · intro size ranges hranges r hr
      rw [QVPNPacketManager.ranges, if_neg hne] at hranges
      split at hranges
      · cases Except.ok.inj hranges
        have hpart := splitRanges_le (Int.natCast_nonneg _) (by omega) r hr
        omega
      · cases Except.ok.inj hranges
        cases List.mem_singleton.mp hr
        dsimp only
        omega

/-- What the first setter leaves of the maximum. -/
theorem setDataMaxSize_ordered {m : QVPNPacketManager} (h : m.Ordered) (size : UInt) :
    (m.setDataMaxSize size).Ordered ↔ m.Keeps (.setDataMaxSize size) := by
  have hlimit : size > 65535 - dataMetaQvpnSize.toUInt32 ↔
      65535 - dataMetaQvpnSize.toNat < size.toNat := UInt32.lt_iff_toNat_lt
  by_cases hignored : size > 65535 - dataMetaQvpnSize.toUInt32
  · have hkept : m.setDataMaxSize size = m := if_pos hignored
    rw [hkept]
    exact iff_of_true h (Or.inl (hlimit.mp hignored))
  · have hset : m.setDataMaxSize size =
        { m with dataMaxSize := size - dataMetaQvpnSize.toUInt32 } := if_neg hignored
    have hsub : (size - dataMetaQvpnSize.toUInt32).toNat = (2 ^ 32 - 306 + size.toNat) % 2 ^ 32 :=
      UInt32.toNat_sub _ _
    have hmeta := dataMetaQvpnSize_toNat
    have hsize := size.toNat_lt
    have hbelow := mt hlimit.mpr hignored
    obtain ⟨hpositive, -, -⟩ := h
    -- below the headers the subtraction wraps to a maximum that no record can hold
    simp only [hset, Ordered, Keeps, hsub, hmeta] at hbelow ⊢
    clear hsub hset
    omega

/-- What the second setter leaves of the part size. -/
theorem setDataSplitSize_ordered {m : QVPNPacketManager} (h : m.Ordered) (size : UShort) :
    (m.setDataSplitSize size).Ordered ↔ m.Keeps (.setDataSplitSize size) := by
  obtain ⟨hpositive, hordered, hbounded⟩ := h
  have hzero : size ≠ 0 ↔ size.toNat ≠ 0 := not_congr UInt16.toNat_inj.symm
  by_cases hignored : size.toUInt32 > m.dataMaxSize
  · rw [setDataSplitSize, if_pos hignored]
    rw [gt_iff_lt, UInt32.lt_iff_toNat_lt, UInt16.toNat_toUInt32] at hignored
    exact iff_of_true ⟨hpositive, hordered, hbounded⟩ (Or.inl hignored)
  · rw [setDataSplitSize, if_neg hignored]
    rw [gt_iff_lt, UInt32.lt_iff_toNat_lt, UInt16.toNat_toUInt32] at hignored
    simp only [Ordered, Keeps, hzero]
    omega

/-- One call keeps a safe configuration exactly when it keeps the order of the sizes. -/
theorem configure_safe_iff (m : QVPNPacketManager) (c : SizeCall)
    (h : m.SplitConfiguration) : (m.configure c).SplitConfiguration ↔ m.Keeps c := by
  rw [splitConfiguration_iff_ordered] at h ⊢
  cases c with
  | setDataMaxSize size => exact setDataMaxSize_ordered h size
  | setDataSplitSize size => exact setDataSplitSize_ordered h size

/-- The default sizes are a safe configuration. -/
theorem initial_splitConfiguration (order : IterationOrder) :
    (initial order).SplitConfiguration := by
  rw [splitConfiguration_iff_ordered]
  have hmax : (initial order).dataMaxSize.toNat = 65229 := rfl
  have hsplit : (initial order).dataSplitSize.toNat = 32615 := rfl
  have hmeta := dataMetaQvpnSize_toNat
  exact ⟨by omega, by omega, by omega⟩

/-- The configuration is safe after every call of a list exactly when every call keeps the order
of the sizes it finds. -/
theorem configured_safe_iff (order : IterationOrder) (calls : List SizeCall) :
    (∀ done, done <+: calls → (configured order done).SplitConfiguration) ↔
      ∀ done c, done ++ [c] <+: calls → (configured order done).Keeps c :=
  Run.forall_prefix_iff configure_safe_iff (initial_splitConfiguration order) calls

/-- A part size of zero is accepted, a maximum below the headers wraps, and a maximum may be set
below the default part size. -/
theorem configured_unsafe : ¬ (configured .increasing [.setDataSplitSize 0]).SplitConfiguration ∧
    (configured .increasing [.setDataSplitSize 0]).ranges 65229 = .error .divisionByZero ∧
    ¬ (configured .increasing [.setDataMaxSize 100]).SplitConfiguration ∧
    (configured .increasing [.setDataMaxSize 100]).dataMaxSize = 4294967090 ∧
    ¬ (configured .increasing [.setDataMaxSize 316]).SplitConfiguration ∧
    (configured .increasing [.setDataMaxSize 316]).dataMaxSize = 10 ∧
    (configured .increasing [.setDataMaxSize 316]).dataSplitSize = 32615 := by
  refine ⟨?_, rfl, ?_, rfl, ?_, rfl, rfl⟩
  · intro h
    exact absurd h.positive (by decide)
  · intro h
    exact absurd h.bounded (by decide)
  · intro h
    exact absurd h.ordered (by decide)

end QVPNPacketManager

end QVPN
