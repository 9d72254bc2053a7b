import Mathlib.Order.Monotone.Basic
import QVPN.Driver.ReceiveLoop

/-!
# When the receive loop ends

The loop should end with the first receive after which the data is full, framing reports an error,
or twenty receives have failed. Its condition lets it end only with full data, and only while a
try is left: an error is not seen, and behind the twentieth failure nothing ends the loop.
-/

namespace QVPN

open Memory InputLoop

namespace SafeRecvState

section Received

variable (received : ℕ → ReceiveData)

/-- The buffers among the first receives. -/
def buffers : ℕ → List (List UByte)
  | 0 => []
  | n + 1 => if (received n).status.success then buffers n ++ [(received n).data] else buffers n

/-- How many of the first receives have failed. -/
def failures : ℕ → ℕ
  | 0 => 0
  | n + 1 => if (received n).status.success then failures n else failures n + 1

/-- The status of the last one. -/
def lastStatus : ℕ → NetStatus
  | 0 => .default
  | n + 1 => (received n).status

end Received

section Framing

variable {δ : Type}
  (frame : δ → SafeReceiveSignal → List UByte → Except Fault (SafeReceiveSignal × δ)) (empty : δ)

/-- What framing makes of buffers that come one after the other. -/
def framed (bufs : List (List UByte)) : Except Fault (SafeReceiveSignal × δ) :=
  bufs.foldlM (fun p buffer => frame p.2 p.1 buffer) (.SFR_NO_DATA, empty)

/-- What the first receives have led to. -/
def stateAfter (received : ℕ → ReceiveData) (n : ℕ) (p : SafeReceiveSignal × δ) : SafeRecvState δ :=
  ⟨p.1, p.2, lastStatus received n, 20 - failures received n⟩

variable (received : ℕ → ReceiveData)

/-- Data is full after so many receives. -/
def FullAt (n : ℕ) : Prop :=
  ∃ data, framed frame empty (buffers received n) = .ok (.SFR_FULL_DATA, data)

/-- The loop should have ended: data is full, framing reports an error, or twenty receives have
failed. -/
def DueAt (n : ℕ) : Prop :=
  ∃ p, framed frame empty (buffers received n) = .ok p ∧
    (p.1 = .SFR_FULL_DATA ∨ p.1 = .SFR_ERROR ∨ 20 ≤ failures received n)

/-- This is so for the first time. -/
def FirstDue (n : ℕ) : Prop :=
  DueAt frame empty received n ∧ ∀ m < n, ¬DueAt frame empty received m

/-- Both loops end with the receive with which they should. -/
def EndsWhenDue : Prop :=
  ∀ n, ((∃ fuel s, QVPNSocket.safeRecv frame empty received fuel = .ok (s, n)) ↔
      FirstDue frame empty received n) ∧
    ((∃ fuel s, QVPNRawSocket.safeRecv frame empty received fuel = .ok (s, n)) ↔
      FirstDue frame empty received n)

/-- Of the three events the first one is full data, if there is any. -/
def FullFirst : Prop := ∀ n, FirstDue frame empty received n → FullAt frame empty received n

variable {frame empty received}

/-- One buffer more is framed with what the others have led to. -/
theorem framed_append (bufs : List (List UByte)) (buffer : List UByte) :
    framed frame empty (bufs ++ [buffer]) =
      framed frame empty bufs >>= fun p => frame p.2 p.1 buffer := by
  rw [framed, List.foldlM_append, ← framed]
  congr 1
  funext p
  exact bind_pure _

/-- A receive that succeeds is framed, one that fails takes a try. -/
theorem receive_stateAfter (n : ℕ) (p : SafeReceiveSignal × δ) :
    receive frame (stateAfter received n p) (received n) =
      if (received n).status.success then
        (frame p.2 p.1 (received n).data).map (stateAfter received (n + 1))
      else .ok (stateAfter received (n + 1) p) := by
  have htries : failures received (n + 1) =
      if (received n).status.success then failures received n else failures received n + 1 := rfl
  cases hsuccess : (received n).status.success with
  | true =>
    rw [hsuccess, if_pos rfl] at htries
    have hnext : stateAfter received (n + 1) = fun q : SafeReceiveSignal × δ =>
        ⟨q.1, q.2, (received n).status, 20 - failures received n⟩ := by
      funext q
      rw [stateAfter, htries, lastStatus]
    rw [if_pos rfl, hnext, receive, hsuccess]
    change (frame p.2 p.1 (received n).data >>= _) = _
    cases frame p.2 p.1 (received n).data <;> rfl
  | false =>
    rw [hsuccess, if_neg (by decide)] at htries
    have hlast : (20 : ℤ) - failures received n - 1 = 20 - (failures received n + 1 : ℕ) := by omega
    rw [if_neg (by decide), stateAfter, stateAfter, htries, lastStatus, receive, hsuccess, ← hlast]
    rfl

/-- The state of the loop follows from the buffers and the failures. -/
theorem after_eq (n : ℕ) : after (receive frame) received (start empty) n =
    (framed frame empty (buffers received n)).map (stateAfter received n) := by
  induction n with
  | zero => rfl
  | succ n ih =>
    have hstep : after (receive frame) received (start empty) (n + 1) =
        framed frame empty (buffers received n) >>= fun p =>
          receive frame (stateAfter received n p) (received n) := by
      rw [after, ih]
      cases framed frame empty (buffers received n) <;> rfl
    rw [hstep, buffers]
    by_cases hsuccess : (received n).status.success = true
    · rw [if_pos hsuccess, framed_append]
      cases framed frame empty (buffers received n) with
      | error fault => rfl
      | ok p =>
        rw [ok_bind, ok_bind, receive_stateAfter, if_pos hsuccess]
    · rw [if_neg hsuccess]
      cases framed frame empty (buffers received n) with
      | error fault => rfl
      | ok p =>
        rw [ok_bind, receive_stateAfter, if_neg hsuccess]
        rfl

/-- The loop goes on unless the data is full and a try is left. -/
theorem continues_eq_true_iff (s : SafeRecvState δ) :
    s.continues = true ↔ ¬(s.signal = .SFR_FULL_DATA ∧ 0 < s.numTries) := by
  have herror : s.signal = .SFR_FULL_DATA → s.signal ≠ .SFR_ERROR := by
    intro hfull
    rw [hfull]
    decide
  rw [continues, Bool.or_eq_true, Bool.or_eq_true, decide_eq_true_iff, decide_eq_true_iff,
    decide_eq_true_iff]
  constructor
  · rintro ((hsignal | hsignal) | htries) ⟨hfull, hleft⟩
    · exact hsignal hfull
    · exact herror hfull hsignal
    · omega
  · intro hgo
    by_cases hfull : s.signal = .SFR_FULL_DATA
    · exact .inr (by have hnone := mt (And.intro hfull) hgo; omega)
    · exact .inl (.inl hfull)

/-- Framing has come so far, and the loop goes on. -/
def GoesOnAt (frame : δ → SafeReceiveSignal → List UByte → Except Fault (SafeReceiveSignal × δ))
    (empty : δ) (received : ℕ → ReceiveData) (n : ℕ) : Prop :=
  ∃ p, framed frame empty (buffers received n) = .ok p ∧
    ¬(p.1 = .SFR_FULL_DATA ∧ failures received n < 20)

/-- What the loop has reached is what framing has made of the buffers. -/
theorem exists_after_iff (n : ℕ) (P : SafeRecvState δ → Prop) :
    (∃ s, after (receive frame) received (start empty) n = .ok s ∧ P s) ↔
      ∃ p, framed frame empty (buffers received n) = .ok p ∧ P (stateAfter received n p) := by
  rw [after_eq]
  constructor
  · rintro ⟨s, hs, hP⟩
    cases hp : framed frame empty (buffers received n) with
    | error fault =>
      rw [hp] at hs
      cases hs
    | ok p =>
      rw [hp] at hs
      cases Except.ok.inj hs
      exact ⟨p, rfl, hP⟩
  · rintro ⟨p, hp, hP⟩
    rw [hp]
    exact ⟨stateAfter received n p, rfl, hP⟩

theorem stateAfter_continues_iff (n : ℕ) (p : SafeReceiveSignal × δ) :
    (stateAfter received n p).continues = true ↔
      ¬(p.1 = .SFR_FULL_DATA ∧ failures received n < 20) := by
  have htries : (0 : ℤ) < 20 - failures received n ↔ failures received n < 20 := by omega
  rw [continues_eq_true_iff, stateAfter, htries]

theorem goesOnAt_iff (n : ℕ) : GoesOnAt frame empty received n ↔
    ∃ s, after (receive frame) received (start empty) n = .ok s ∧ s.continues = true := by
  rw [exists_after_iff]
  simp only [stateAfter_continues_iff]
  exact Iff.rfl

theorem stopsAt_iff (n : ℕ) :
    (∃ s, after (receive frame) received (start empty) n = .ok s ∧ s.continues = false) ↔
      FullAt frame empty received n ∧ failures received n < 20 := by
  rw [exists_after_iff]
  simp only [← Bool.not_eq_true, stateAfter_continues_iff, not_not]
  constructor
  · rintro ⟨p, hp, hfull, hleft⟩
    exact ⟨⟨p.2, hfull ▸ hp⟩, hleft⟩
  · rintro ⟨⟨data, hdata⟩, hleft⟩
    exact ⟨(.SFR_FULL_DATA, data), hdata, rfl, hleft⟩

/-- The loop ends where data is full for the first time, if not all tries are lost. -/
theorem safeRecv_iff (n : ℕ) :
    (∃ fuel s, QVPNSocket.safeRecv frame empty received fuel = .ok (s, n)) ↔
      (FullAt frame empty received n ∧ failures received n < 20) ∧
        ∀ m < n, GoesOnAt frame empty received m := by
  have hreturns : (∃ fuel s, QVPNSocket.safeRecv frame empty received fuel = .ok (s, n)) ↔
      ∃ s, Returns continues (receive frame) received (start empty) s n := exists_comm
  rw [hreturns, ← stopsAt_iff]
  simp only [returns_iff, goesOnAt_iff]
  constructor
  · rintro ⟨s, hend, hstop, hall⟩
    exact ⟨⟨s, hend, hstop⟩, hall⟩
  · rintro ⟨⟨s, hend, hstop⟩, hall⟩
    exact ⟨s, hend, hstop, hall⟩

/-- Receives do not give tries back. -/
theorem failures_mono : Monotone (failures received) := by
  apply monotone_nat_of_le_succ
  intro n
  rw [failures]
  split
  · exact Nat.le_refl _
  · exact Nat.le_succ _

/-- Framing that has come so far has come through all receives before. -/
theorem framed_of_le {m n : ℕ} (hmn : m ≤ n) {p : SafeReceiveSignal × δ}
    (h : framed frame empty (buffers received n) = .ok p) :
    ∃ q, framed frame empty (buffers received m) = .ok q := by
  obtain ⟨s, hs, -⟩ := (exists_after_iff n fun _ => True).mpr ⟨p, h, trivial⟩
  obtain ⟨t, ht⟩ := after_of_le hmn hs
  obtain ⟨q, hq, -⟩ := (exists_after_iff m fun _ => True).mp ⟨t, ht, trivial⟩
  exact ⟨q, hq⟩

/-- Where the loop should end with full data it does. -/
theorem FirstDue.ends {n : ℕ} (h : FirstDue frame empty received n)
    (hfull : FullAt frame empty received n) :
    ∃ fuel s, QVPNSocket.safeRecv frame empty received fuel = .ok (s, n) := by
  have hleft : failures received n < 20 := by
    cases n with
    | zero => exact Nat.zero_lt_succ _
    | succ k =>
      obtain ⟨data, hdata⟩ := hfull
      obtain ⟨q, hq⟩ := framed_of_le (Nat.le_succ k) hdata
      have hbefore : failures received k < 20 := by
        by_contra hlost
        exact h.2 k (Nat.lt_succ_self k) ⟨q, hq, .inr (.inr (not_lt.mp hlost))⟩
      by_cases hsuccess : (received k).status.success = true
      · rw [failures, if_pos hsuccess]
        exact hbefore
      · rw [buffers, if_neg hsuccess] at hdata
        exact absurd ⟨_, hdata, .inl rfl⟩ (h.2 k (Nat.lt_succ_self k))
  refine (safeRecv_iff n).mpr ⟨⟨hfull, hleft⟩, ?_⟩
  intro m hm
  obtain ⟨data, hdata⟩ := hfull
  obtain ⟨q, hq⟩ := framed_of_le hm.le hdata
  exact ⟨q, hq, fun hstop => h.2 m hm ⟨q, hq, .inl hstop.1⟩⟩

/-- A loop that ends when it should ends with full data only. -/
theorem EndsWhenDue.fullFirst (h : EndsWhenDue frame empty received) :
    FullFirst frame empty received := by
  intro n hdue
  exact ((safeRecv_iff n).mp ((h n).1.mpr hdue)).1.1

/-- Where full data comes first the loop ends when it should. -/
theorem FullFirst.endsWhenDue (h : FullFirst frame empty received) :
    EndsWhenDue frame empty received := by
  intro n
  have hends : (∃ fuel s, QVPNSocket.safeRecv frame empty received fuel = .ok (s, n)) ↔
      FirstDue frame empty received n := by
    constructor
    · intro hrun
      obtain ⟨⟨hfull, hleft⟩, hall⟩ := (safeRecv_iff n).mp hrun
      obtain ⟨data, hdata⟩ := hfull
      refine ⟨⟨_, hdata, .inl rfl⟩, ?_⟩
      intro m hm hdue
      -- the first time it should end is before `n`, with full data and a try left
      classical
      have hexists : ∃ k, DueAt frame empty received k := ⟨m, hdue⟩
      have hle : Nat.find hexists ≤ m := Nat.find_min' hexists hdue
      have hfirst : FirstDue frame empty received (Nat.find hexists) :=
        ⟨Nat.find_spec hexists, fun _ hlt => Nat.find_min hexists hlt⟩
      obtain ⟨data', hdata'⟩ := h _ hfirst
      obtain ⟨p, hp, hgo⟩ := hall (Nat.find hexists) (by omega)
      cases hdata'.symm.trans hp
      exact hgo ⟨rfl, (failures_mono (by omega)).trans_lt hleft⟩
    · intro hdue
      exact hdue.ends (h n hdue)
  exact ⟨hends, hends⟩

/-- The loop ends when it should exactly when full data comes before any error and before twenty
failures. -/
theorem endsWhenDue_iff (frame : δ → SafeReceiveSignal → List UByte →
      Except Fault (SafeReceiveSignal × δ)) (empty : δ) (received : ℕ → ReceiveData) :
    EndsWhenDue frame empty received ↔ FullFirst frame empty received :=
  ⟨EndsWhenDue.fullFirst, FullFirst.endsWhenDue⟩

/-- Behind the twentieth failure the loop never ends. -/
theorem not_ends_of_failures {n : ℕ} (hlost : 20 ≤ failures received n)
    (hnever : ∀ m < n, ¬FullAt frame empty received m) (fuel m : ℕ) (s : SafeRecvState δ) :
    QVPNSocket.safeRecv frame empty received fuel ≠ .ok (s, m) := by
  intro h
  obtain ⟨⟨hfull, hleft⟩, -⟩ := (safeRecv_iff m).mp ⟨fuel, s, h⟩
  have hm : m < n := by
    by_contra hle
    have hmono : failures received n ≤ failures received m := failures_mono (not_lt.mp hle)
    omega
  exact hnever m hm hfull

end Framing

section Records

/-- The loop over the parser of a continuation sees no error. -/
theorem parseLoop_signal {last fuel start fin : ℕ} {s s' : SafeReceiveData}
    {signal : SafeReceiveSignal}
    (h : SafeReceiveData.parseLoop last fuel s start fin = .ok (signal, s')) :
    signal ≠ .SFR_ERROR := by
  induction fuel generalizing s start fin with
  | zero => cases h
  | succ fuel ih =>
    obtain ⟨res, hres, h⟩ := bind_eq_ok_iff.mp h
    obtain ⟨stop, parsed, rfl, ⟨rfl, -⟩ | rfl | ⟨rfl, -⟩⟩ := TLS13Record.bytesParse_cases hres
    · cases h
      decide
    · cases h
      decide
    · obtain ⟨⟨first, second⟩, -, h⟩ := bind_eq_ok_iff.mp h
      exact ih h

/-- Framing of records reports no error. -/
theorem addObjectsAndValidate_signal {s s' : SafeReceiveData} {prev signal : SafeReceiveSignal}
    {buffer : List UByte} (h : s.addObjectsAndValidate prev buffer = .ok (signal, s')) :
    signal ≠ .SFR_ERROR := by
  unfold SafeReceiveData.addObjectsAndValidate at h
  split at h
  · obtain ⟨⟨start, fin⟩, -, h⟩ := bind_eq_ok_iff.mp h
    exact parseLoop_signal h
  · obtain ⟨res, hres, h⟩ := bind_eq_ok_iff.mp h
    obtain ⟨stop, parsed, rfl, ⟨rfl, -⟩ | rfl | ⟨rfl, -⟩⟩ := TLS13Record.bytesParse_cases hres
    · obtain ⟨object, -, h⟩ := bind_eq_ok_iff.mp h
      cases h
      decide
    · obtain ⟨object, -, h⟩ := bind_eq_ok_iff.mp h
      cases h
      decide
    · obtain ⟨object, -, h⟩ := bind_eq_ok_iff.mp h
      obtain ⟨tail, -, h⟩ := bind_eq_ok_iff.mp h
      cases h
      decide

theorem framed_signal {bufs : List (List UByte)} {p : SafeReceiveSignal × SafeReceiveData}
    (h : framed SafeReceiveData.addObjectsAndValidate .empty bufs = .ok p) : p.1 ≠ .SFR_ERROR := by
  induction bufs using List.reverseRecOn with
  | nil =>
    cases h
    decide
  | append_singleton bufs buffer ih =>
    rw [framed_append] at h
    obtain ⟨q, -, h⟩ := bind_eq_ok_iff.mp h
    exact addObjectsAndValidate_signal h

/-- With records the loop ends when it should exactly when data is full before twenty receives
have failed. -/
theorem endsWhenDue_records_iff (received : ℕ → ReceiveData) :
    EndsWhenDue SafeReceiveData.addObjectsAndValidate .empty received ↔
      ∀ n, FirstDue SafeReceiveData.addObjectsAndValidate .empty received n →
        failures received n < 20 := by
  constructor
  · intro h n hdue
    exact ((safeRecv_iff n).mp (hdue.ends (h.fullFirst n hdue))).1.2
  · intro h
    apply FullFirst.endsWhenDue
    intro n hdue
    have hleft := h n hdue
    obtain ⟨⟨p, hp, hsignal⟩, -⟩ := hdue
    rcases hsignal with hfull | herror | hlost
    · exact ⟨p.2, hfull ▸ hp⟩
    · exact absurd herror (framed_signal hp)
    · exact absurd hlost (not_le.mpr hleft)

/-- A peer that sends the header of a record and is gone. -/
def lostPeer : ℕ → ReceiveData
  | 0 => ⟨⟨true, 0⟩, [23, 3, 3, 0, 10]⟩
  | _ + 1 => ⟨⟨false, 104⟩, []⟩

theorem lostPeer_buffers (n : ℕ) : buffers lostPeer (n + 1) = [[23, 3, 3, 0, 10]] := by
  induction n with
  | zero => rfl
  | succ n ih => exact ih

theorem lostPeer_failures (n : ℕ) : failures lostPeer (n + 1) = n := by
  induction n with
  | zero => rfl
  | succ n ih => exact congrArg (· + 1) ih

/-- The loop does not end after a lost peer's twentieth failure. -/
theorem lostPeer_not_endsWhenDue :
    ¬EndsWhenDue SafeReceiveData.addObjectsAndValidate .empty lostPeer := by
  have hwait : framed SafeReceiveData.addObjectsAndValidate .empty [[23, 3, 3, 0, 10]] =
      .ok (.SFR_WAIT_DATA, ⟨[(0, 5)], [23, 3, 3, 0, 10]⟩) := by decide
  have hframed (n : ℕ) : framed SafeReceiveData.addObjectsAndValidate .empty
      (buffers lostPeer (n + 1)) = .ok (.SFR_WAIT_DATA, ⟨[(0, 5)], [23, 3, 3, 0, 10]⟩) := by
    rw [lostPeer_buffers, hwait]
  have hfirst : FirstDue SafeReceiveData.addObjectsAndValidate .empty lostPeer 21 := by
    refine ⟨⟨_, hframed 20, .inr (.inr (lostPeer_failures 20).ge)⟩, ?_⟩
    rintro m hm ⟨p, hp, hdue⟩
    cases m with
    | zero =>
      cases Except.ok.inj hp
      revert hdue
      decide
    | succ m =>
      cases (hframed m).symm.trans hp
      rw [lostPeer_failures] at hdue
      rcases hdue with hdue | hdue | hdue
      · cases hdue
      · cases hdue
      · omega
  intro h
  obtain ⟨⟨⟨data, hdata⟩, -⟩, -⟩ := (safeRecv_iff 21).mp ((h 21).1.mpr hfirst)
  cases (hframed 20).symm.trans hdata

end Records

end SafeRecvState

end QVPN
