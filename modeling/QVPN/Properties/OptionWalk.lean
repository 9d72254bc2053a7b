import QVPN.Lib.Lens
import QVPN.Lib.Strides
import QVPN.Structures.TcpOptions

/-!
# The walk over TCP options

Printing TCP options walks over them: two kinds of options are one byte long, and any other one is
as long as its second byte says. The loops of both classes return, advance and read nothing but the
options exactly when the options can be stepped over one after the other, whatever lies behind them
in memory.
-/

namespace QVPN

open Memory Strides

namespace TcpOptionsView

/-- A loop over options, with what it prints, returns. Each of its iterations goes forward, and
finds how far in the bytes of the options alone. -/
structure StaysIn (options mem : List UByte) (size : ℕ)
    (printed : Except Fault (List (UByte × UShort))) : Prop where
  returns : ∃ shown, printed = .ok shown
  advances : ∀ j length, OptionAt mem size 0 j → j < size → getNextOptionOffset mem j = .ok length →
    length ≠ 0
  inRange : ∀ j, OptionAt mem size 0 j → j < size → ∃ length, getNextOptionOffset options j = .ok length

/-- An iteration of the loop, which never leaves early. -/
def optionStride (mem : List UByte) (i : ℕ) : Except Fault (Option ℕ) := do
  let length ← getNextOptionOffset mem i
  return some length.toNat

theorem optionStride_eq_ok_iff {mem : List UByte} {i : ℕ} {decision : Option ℕ} :
    optionStride mem i = .ok decision ↔
      ∃ length, getNextOptionOffset mem i = .ok length ∧ decision = some length.toNat := by
  rw [optionStride, bind_eq_ok_iff]
  simp only [pure, Except.pure, Except.ok.injEq, eq_comm]

/-- The positions of the options are those that the strides visit. -/
theorem visits_iff_optionAt {mem : List UByte} {size i j : ℕ} :
    Visits (optionStride mem) size i j ↔ OptionAt mem size i j := by
  constructor
  · intro h
    induction h with
    | here => exact .here _
    | next hi hstride _ ih =>
      obtain ⟨length, hlength, hn⟩ := optionStride_eq_ok_iff.mp hstride
      rw [Option.some.inj hn] at ih
      exact .next hi hlength ih
  · intro h
    induction h with
    | here => exact .here _
    | next hi hlength _ ih =>
      exact .next hi (optionStride_eq_ok_iff.mpr ⟨_, hlength, rfl⟩) ih

/-- Readable options are those over which the strides make progress. -/
theorem progresses_iff_readable {mem : List UByte} {size i : ℕ} :
    Progresses (optionStride mem) size i ↔ OptionsReadable mem size i := by
  have hzero (length : UShort) : some length.toNat ≠ some 0 ↔ length ≠ 0 := by
    rw [ne_eq, Option.some.injEq, ← UInt16.toNat_zero, UInt16.toNat_inj]
  constructor
  · intro h j hj hlt
    obtain ⟨decision, hdecision, hpos⟩ := h j (visits_iff_optionAt.mpr hj) hlt
    obtain ⟨length, hlength, rfl⟩ := optionStride_eq_ok_iff.mp hdecision
    exact ⟨length, hlength, (hzero length).mp hpos⟩
  · intro h j hj hlt
    obtain ⟨length, hlength, hpos⟩ := h j (visits_iff_optionAt.mp hj) hlt
    exact ⟨_, optionStride_eq_ok_iff.mpr ⟨length, hlength, rfl⟩, (hzero length).mpr hpos⟩

/-- What lies behind an option does not change its length. -/
theorem getNextOptionOffset_append {mem : List UByte} {i : ℕ} {length : UShort}
    (h : getNextOptionOffset mem i = .ok length) (after : List UByte) :
    getNextOptionOffset (mem ++ after) i = .ok length := by
  obtain ⟨kind, hkind, h⟩ := bind_eq_ok_iff.mp h
  rw [getNextOptionOffset, readAt_of_prefix hkind, ok_bind]
  split
  · next hsingle =>
    rw [if_pos hsingle] at h
    exact h
  · next hlong =>
    rw [if_neg hlong] at h
    obtain ⟨byte, hbyte, h⟩ := bind_eq_ok_iff.mp h
    rw [Memory.readAt_of_prefix hbyte, ok_bind]
    exact h

/-- What lies in front of an option does not change its length. -/
theorem getNextOptionOffset_drop (mem : List UByte) (n i : ℕ) :
    getNextOptionOffset (mem.drop n) i = getNextOptionOffset mem (n + i) := by
  simp only [getNextOptionOffset, Lens.readAt_drop, Nat.add_assoc]

/-- A loop whose bound is inside the options stays in them when it makes progress on them. -/
theorem staysIn_iff (options after : List UByte) {size : ℕ} (hsize : size ≤ options.length) :
    StaysIn options (options ++ after) size
        (walk (options ++ after) size ((options ++ after).length + 1) 0) ↔
      Progresses (optionStride options) size 0 := by
  have hfuel : size ≤ (options ++ after).length + 1 + 0 := by
    rw [List.length_append]
    omega
  have hagree (i : ℕ) (decision : Option ℕ) (h : optionStride options i = .ok decision) :
      optionStride (options ++ after) i = .ok decision := by
    obtain ⟨length, hlength, hn⟩ := optionStride_eq_ok_iff.mp h
    exact optionStride_eq_ok_iff.mpr ⟨length, getNextOptionOffset_append hlength after, hn⟩
  constructor
  · intro h
    rw [progresses_iff_readable]
    intro j hj hlt
    have hvisited : OptionAt (options ++ after) size 0 j :=
      visits_iff_optionAt.mp ((visits_iff_optionAt.mpr hj).of_agree hagree)
    obtain ⟨length, hlength⟩ := h.inRange j hvisited hlt
    exact ⟨length, hlength, h.advances j length hvisited hlt (getNextOptionOffset_append hlength after)⟩
  · intro h
    have hvisits (j : ℕ) (hj : OptionAt (options ++ after) size 0 j) :
        OptionAt options size 0 j :=
      visits_iff_optionAt.mp (h.visits hagree (visits_iff_optionAt.mpr hj))
    have hoptions := progresses_iff_readable.mp h
    have hreadable : OptionsReadable (options ++ after) size 0 := by
      intro j hj hlt
      obtain ⟨length, hlength, hpos⟩ := hoptions j (hvisits j hj) hlt
      exact ⟨length, getNextOptionOffset_append hlength after, hpos⟩
    refine ⟨(walk_readable_iff hfuel).mpr hreadable, ?_, ?_⟩
    · intro j length hj hlt hlength
      obtain ⟨length', hlength', hpos⟩ := hreadable j hj hlt
      cases Except.ok.inj (hlength.symm.trans hlength')
      exact hpos
    · intro j hj hlt
      obtain ⟨length, hlength, -⟩ := hoptions j (hvisits j hj) hlt
      exact ⟨length, hlength⟩

end TcpOptionsView

open TcpOptionsView

/-- Options that can be stepped over. An option of kind 0 or 1 is a single byte; any other one has
its length in its second byte, which is not zero and may go beyond the end. -/
inductive OptionsSteppable : List UByte → Prop where
  | nil : OptionsSteppable []
  | single {kind : UByte} {rest : List UByte} (hkind : kind = 0 ∨ kind = 1)
      (hrest : OptionsSteppable rest) : OptionsSteppable (kind :: rest)
  | long {kind length : UByte} {rest : List UByte} (hkind : ¬(kind = 0 ∨ kind = 1))
      (hlength : length ≠ 0) (hrest : OptionsSteppable ((kind :: length :: rest).drop length.toNat)) :
      OptionsSteppable (kind :: length :: rest)

/-- The stride at an option of a single byte. -/
theorem optionStride_single {kind : UByte} (hkind : kind = 0 ∨ kind = 1) (rest : List UByte) :
    optionStride (kind :: rest) 0 = .ok (some 1) := by
  rw [optionStride, getNextOptionOffset, readAt_cons_zero, ok_bind, if_pos hkind]
  rfl

/-- The stride at any other option. -/
theorem optionStride_long {kind : UByte} (hkind : ¬(kind = 0 ∨ kind = 1)) (length : UByte)
    (rest : List UByte) : optionStride (kind :: length :: rest) 0 = .ok (some length.toNat) := by
  rw [optionStride, getNextOptionOffset, readAt_cons_zero, ok_bind, if_neg hkind, readAt_cons_succ,
    readAt_cons_zero]
  simp only [ok_bind, pure_bind, UInt8.toNat_toUInt16]
  rfl

/-- Options can be stepped over when their lengths divide them. -/
theorem divisible_iff_steppable {options : List UByte} :
    Divisible (fun _ xs => optionStride xs 0) options.length options ↔ OptionsSteppable options := by
  constructor
  · intro h
    generalize hsize : options.length = size at h
    induction h with
    | done =>
      rw [List.eq_nil_of_length_eq_zero hsize]
      exact .nil
    | leave hleave =>
      obtain ⟨length, -, hdecision⟩ := optionStride_eq_ok_iff.mp hleave
      cases hdecision
    | @cut size n xs hcut hn _ ih =>
      have hrest := ih (by rw [List.length_drop, hsize])
      match xs, hcut, hrest with
      | kind :: rest, hcut, hrest =>
        by_cases hkind : kind = 0 ∨ kind = 1
        · rw [optionStride_single hkind] at hcut
          cases Except.ok.inj hcut
          exact .single hkind hrest
        · match rest, hcut, hrest with
          | [], hcut, _ =>
            rw [optionStride, getNextOptionOffset, readAt_cons_zero, ok_bind, if_neg hkind] at hcut
            cases hcut
          | length :: rest, hcut, hrest =>
            rw [optionStride_long hkind] at hcut
            cases Except.ok.inj hcut
            exact .long hkind (fun hzero => hn (by rw [hzero]; rfl)) hrest
  · intro h
    induction h with
    | nil => exact .done _
    | single hkind _ ih => exact .cut (optionStride_single hkind _) Nat.one_ne_zero ih
    | @long kind length rest hkind hlength _ ih =>
      rw [List.length_drop] at ih
      refine .cut (optionStride_long hkind _ _) (fun hzero => hlength ?_) ih
      exact UInt8.toNat_inj.mp hzero

/-- The loops of both classes, over the options they hold and over a range, stay in the options. -/
structure OptionWalksInBounds (options after : List UByte) : Prop where
  object : StaysIn options options options.length
    (TcpOptionsObject.mk options).toTcpOptionsFriendlyView
  objectRange : StaysIn options (options ++ after) (sizeBound options.length)
    (TcpOptionsObject.toTcpOptionsFriendlyViewOfRange (options ++ after) options.length)
  view : StaysIn options (options ++ after) (UInt16.ofInt options.length).toNat
    (ofRange (options ++ after) options.length).toTcpOptionsFriendlyViewOfView
  viewRange : StaysIn options (options ++ after) (sizeBound options.length)
    (toTcpOptionsFriendlyView (options ++ after) options.length)

/-- The loops over any option bytes, with any bytes behind them in memory, stay in the options
exactly when these can be stepped over. -/
theorem optionWalksInBounds_iff (options after : List UByte) :
    OptionWalksInBounds options after ↔ OptionsSteppable options := by
  have hhead (i : ℕ) (_ : i < options.length) :
      optionStride options i = optionStride (options.drop i) 0 := by
    rw [optionStride, optionStride, getNextOptionOffset_drop, Nat.add_zero]
  have hsteppable : Progresses (optionStride options) options.length 0 ↔
      OptionsSteppable options := by
    rw [← divisible_iff_steppable]
    exact progresses_iff_divisible hhead
  have hobject := staysIn_iff options [] (Nat.le_refl options.length)
  rw [List.append_nil] at hobject
  have hbound : sizeBound options.length ≤ options.length := by
    rw [sizeBound]
    omega
  have hnarrow : (UInt16.ofInt options.length).toNat ≤ options.length := by
    rw [BigEndian.toNat_ofInt]
    omega
  rw [← hsteppable]
  constructor
  · intro h
    exact hobject.mp h.object
  · intro h
    exact ⟨hobject.mpr h, (staysIn_iff options after hbound).mpr (h.mono hbound),
      (staysIn_iff options after hnarrow).mpr (h.mono hnarrow),
      (staysIn_iff options after hbound).mpr (h.mono hbound)⟩

/-- An option of length zero is never left behind, and the length of a kind byte in the last
position is read behind the options. -/
theorem zeroLength_not_inBounds :
    ¬OptionWalksInBounds [2, 0] [] ∧
      (∀ fuel shown, walk [2, 0] 2 fuel 0 ≠ .ok shown) ∧
      ¬OptionWalksInBounds [1, 2] [4] ∧ getNextOptionOffset [1, 2, 4] 1 = .ok 4 := by
  have hstands (fuel : ℕ) (shown : List (UByte × UShort)) : walk [2, 0] 2 fuel 0 ≠ .ok shown :=
    walk_of_zero (by decide) rfl fuel shown
  refine ⟨fun h => ?_, hstands, fun h => ?_, rfl⟩
  · obtain ⟨shown, hshown⟩ := h.object.returns
    exact hstands _ shown hshown
  · have hvisited : OptionAt ([1, 2] ++ [4]) 2 0 1 :=
      @OptionAt.next _ _ 0 1 1 (by decide) rfl (.here 1)
    obtain ⟨length, hlength⟩ := h.viewRange.inRange 1 hvisited (by decide)
    cases hlength

end QVPN
