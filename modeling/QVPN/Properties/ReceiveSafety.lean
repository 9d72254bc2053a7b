import QVPN.Driver.SafeReceive
import Mathlib.Data.List.GetD

/-!
# Receiving arbitrary bytes

Whatever bytes arrive, the first call of the receiver cuts them into at most two objects that
tile the data. Each later call parses the last object again. It keeps the tiling as long as the
received bytes do not run past the end that the header of this object declares. A call in which
they do either reads a header behind the data or leaves a separator there.
-/

namespace QVPN

open BigEndian Memory

namespace SafeReceiveData

/-- Separators that follow each other from `b` to `e`. -/
def TilesFrom : ℕ → List (ℕ × ℕ) → ℕ → Prop
  | b, [], e => b = e
  | b, p :: rest, e => p.1 = b ∧ p.1 ≤ p.2 ∧ TilesFrom p.2 rest e

/-- The separators are contiguous from 0, lie inside the data and cover it. -/
structure Tiled (s : SafeReceiveData) : Prop where
  contiguous : TilesFrom 0 s.separators s.data.length
  inside : ∀ p ∈ s.separators, p.1 ≤ p.2 ∧ p.2 ≤ s.data.length

/-- What each call of a receiving loop does: it adds the buffer to the data and returns with the data
tiled, after parses that start inside it. The loop ends with a full signal. -/
def CallsGood : SafeReceiveSignal → SafeReceiveData → List (List UByte) → Prop
  | _, _, [] => True
  | signal, s, buffer :: buffers => signal = .SFR_FULL_DATA ∨
    ∃ signal' s', s.addObjectsAndValidate signal buffer = .ok (signal', s') ∧
      s'.data = s.data ++ buffer ∧ s'.Tiled ∧
      (signal = .SFR_WAIT_DATA → ∀ p ∈ s.getLastObject.getLast?, p.1 ≤ (s.data ++ buffer).length) ∧
      CallsGood signal' s' buffers

/-- The full length that the header at the front of an object declares, as a 16-bit number. -/
def declaredLength (object : List UByte) : ℕ :=
  (join (object.getD 3 0) (object.getD 4 0) + 1 + 2 + 2).toNat

/-- An object that ends where its header says. -/
def Complete (object : List UByte) : Prop :=
  5 ≤ object.length ∧ declaredLength object = object.length

/-- An object that ends behind the end its header declares. -/
def Overrun (object : List UByte) : Prop :=
  5 ≤ object.length ∧ declaredLength object < object.length

instance (object : List UByte) : Decidable (Complete object) := inferInstanceAs (Decidable (_ ∧ _))

instance (object : List UByte) : Decidable (Overrun object) := inferInstanceAs (Decidable (_ ∧ _))

/-- Where the last object starts after the first buffer. -/
def lastStart (first : List UByte) : ℕ := if Overrun first then declaredLength first else 0

/-- Up to a buffer that completes it, no buffer runs past the end of the object. -/
def NeverOverruns : List UByte → List (List UByte) → Prop
  | _, [] => True
  | object, buffer :: buffers =>
    ¬Overrun (object ++ buffer) ∧
      (Complete (object ++ buffer) ∨ NeverOverruns (object ++ buffer) buffers)

/-- The first buffer is a whole record, or no later buffer runs past the end of the last object
found in it. -/
def StaysInside : List (List UByte) → Prop
  | [] => True
  | first :: buffers => Complete first ∨ NeverOverruns (first.drop (lastStart first)) buffers

/-- Tiles have ordered ends up to the end of the last one. -/
theorem TilesFrom.inside {b e : ℕ} {separators : List (ℕ × ℕ)} (h : TilesFrom b separators e) :
    b ≤ e ∧ ∀ p ∈ separators, p.1 ≤ p.2 ∧ p.2 ≤ e := by
  induction separators generalizing b with
  | nil => exact ⟨le_of_eq h, by simp⟩
  | cons p rest ih =>
    obtain ⟨hfirst, hle, hrest⟩ := h
    obtain ⟨hend, hinside⟩ := ih hrest
    refine ⟨by omega, fun q hq => ?_⟩
    obtain rfl | hq := List.mem_cons.mp hq
    · exact ⟨hle, hend⟩
    · exact hinside q hq

theorem TilesFrom.tiled {s : SafeReceiveData} (h : TilesFrom 0 s.separators s.data.length) :
    s.Tiled :=
  ⟨h, h.inside.2⟩

/-- One more tile. -/
theorem TilesFrom.concat {b m e : ℕ} {separators : List (ℕ × ℕ)} (h : TilesFrom b separators m)
    (hle : m ≤ e) : TilesFrom b (separators ++ [(m, e)]) e := by
  induction separators generalizing b with
  | nil =>
    cases h
    exact ⟨rfl, hle, rfl⟩
  | cons p rest ih => exact ⟨h.1, h.2.1, ih h.2.2⟩

/-- What the parser says about a whole object. -/
theorem bytesParse_object (object : List UByte) :
    TLS13Record.bytesParse object object.length = .ok ⟨0,
      if 5 ≤ object.length then declaredLength object else object.length,
      if Complete object then .BP_FULL_OBJECT
        else if Overrun object then .BP_FULL_OBJECT_AND_TAIL else .BP_NOT_FULL_OBJECT,
      object.length⟩ := by
  by_cases hlen : 5 ≤ object.length
  · have hread : read16 object 3 = .ok (join (object.getD 3 0) (object.getD 4 0)) := by
      have hat (i : ℕ) (hi : i < object.length) : readAt object i = .ok (object.getD i 0) :=
        readAt_eq_ok_iff.mpr (by simp [List.getD, hi])
      rw [read16, hat 3 (by omega), ok_bind, hat 4 (by omega)]
      rfl
    rw [TLS13Record.bytesParse, if_neg (by omega), if_pos hlen, TLS13Record.getTlsRecordFullLength,
      hread]
    simp only [ok_bind, pure_bind, Complete, Overrun, hlen, true_and]
    change Except.ok _ = Except.ok _
    congr 2
    change (if declaredLength object = object.length then _ else
      if declaredLength object > object.length then _ else _) = _
    split
    · rfl
    · split
      · rw [if_neg (by omega)]
      · rw [if_pos (by omega)]
  · rw [TLS13Record.bytesParse, if_pos (by omega), if_neg hlen, if_neg fun h => hlen h.1,
      if_neg fun h => hlen h.1]

/-- The first call never leaves the buffer. -/
theorem parseData_empty (first : List UByte) :
    parseData empty first = .ok
      (if Complete first then .SFR_FULL_DATA else .SFR_WAIT_DATA,
        ⟨if Overrun first then [(0, declaredLength first), (declaredLength first, first.length)]
          else [(0, first.length)], first⟩) := by
  rw [parseData, bytesParse_object, ok_bind]
  dsimp only
  by_cases hcomplete : Complete first
  · have hnot : ¬Overrun first := fun h => by
      have := h.2
      have := hcomplete.2
      omega
    simp only [hcomplete, hnot, if_true, if_false, if_pos hcomplete.1, hcomplete.2]
    rw [show ((0 : ℕ) : ℤ) = 0 from rfl, slice_all _ _ rfl]
    simp [addObject, empty, pure, Except.pure]
  · by_cases hover : Overrun first
    · obtain ⟨hlen, hlt⟩ := hover
      simp only [hcomplete, show Overrun first from ⟨hlen, hlt⟩, if_true, if_false, if_pos hlen]
      have htake : (first.take (declaredLength first)).length = declaredLength first := by
        rw [List.length_take]
        omega
      have hend : declaredLength first + (first.length - declaredLength first) = first.length := by
        omega
      have hfront : slice first ((0 : ℕ) : ℤ) (declaredLength first) =
          .ok (first.take (declaredLength first)) :=
        slice_eq_ok_iff.mpr ⟨by simp, by simp, by omega, by simp⟩
      have htail : slice first (declaredLength first) first.length =
          .ok (first.drop (declaredLength first)) :=
        slice_eq_ok_iff.mpr ⟨by omega, by omega, by omega,
          (List.take_of_length_le (by rw [List.length_drop]; omega)).symm⟩
      rw [hfront, ok_bind, htail, ok_bind]
      simp only [addObject, empty, List.nil_append, List.length_nil, htake, List.length_drop,
        List.take_append_drop, List.singleton_append, pure, Except.pure, hend, Nat.zero_add]
    · simp only [hcomplete, hover, if_false]
      rw [show ((0 : ℕ) : ℤ) = 0 from rfl, slice_all _ _ rfl]
      simp [addObject, empty, pure, Except.pure]

/-- A later call on tiled data parses the last object with the new bytes. -/
theorem addDataAndParse_object {init : List (ℕ × ℕ)} {a : ℕ} {data : List UByte}
    (ha : a ≤ data.length) (z : ℕ) (buffer : List UByte) :
    addDataAndParse ⟨init ++ [(a, z)], data⟩ buffer =
      if Overrun (data.drop a ++ buffer) then
        if (data.drop a ++ buffer).length - declaredLength (data.drop a ++ buffer) < 5 then
          .ok (.SFR_WAIT_DATA, ⟨init ++ [(a, a + declaredLength (data.drop a ++ buffer))] ++
            [((data ++ buffer).length, (data ++ buffer).length +
              ((data.drop a ++ buffer).length - declaredLength (data.drop a ++ buffer)))],
                data ++ buffer⟩)
        else .error .outOfBounds
      else .ok (if Complete (data.drop a ++ buffer) then .SFR_FULL_DATA else .SFR_WAIT_DATA,
        ⟨init ++ [(a, (data ++ buffer).length)], data ++ buffer⟩) := by
  have hobject : (data ++ buffer).drop a = data.drop a ++ buffer :=
    List.drop_append_of_le_length ha
  have hlen : (data ++ buffer).length - a = (data.drop a ++ buffer).length := by
    rw [← hobject, List.length_drop]
  rw [addDataAndParse_eq, hobject]
  dsimp only
  rw [hlen, bytesParse_object, ok_bind]
  by_cases hcomplete : Complete (data.drop a ++ buffer)
  · have hnot : ¬Overrun (data.drop a ++ buffer) := fun h => by
      have := h.2
      have := hcomplete.2
      omega
    simp only [hcomplete, hnot, if_true, if_false]
    rfl
  · by_cases hover : Overrun (data.drop a ++ buffer)
    · simp only [hcomplete, hover, if_true, if_false, if_pos hover.1]
      rfl
    · simp only [hcomplete, hover, if_false]
      rfl

/-- Later calls stay good exactly while no buffer runs past the end of the last object. -/
theorem callsGood_wait (init : List (ℕ × ℕ)) {a : ℕ} (hinit : TilesFrom 0 init a)
    {data : List UByte} (ha : a ≤ data.length) (z : ℕ) (buffers : List (List UByte)) :
    CallsGood .SFR_WAIT_DATA ⟨init ++ [(a, z)], data⟩ buffers ↔
      NeverOverruns (data.drop a) buffers := by
  induction buffers generalizing data z with
  | nil => exact ⟨fun _ => trivial, fun _ => trivial⟩
  | cons buffer buffers ih =>
    have hlen : (data ++ buffer).length = data.length + buffer.length := List.length_append
    have hobject : (data ++ buffer).drop a = data.drop a ++ buffer :=
      List.drop_append_of_le_length ha
    have hcall : addObjectsAndValidate ⟨init ++ [(a, z)], data⟩ .SFR_WAIT_DATA buffer =
        addDataAndParse ⟨init ++ [(a, z)], data⟩ buffer := if_pos rfl
    rw [CallsGood, NeverOverruns, hcall, addDataAndParse_object ha]
    by_cases hover : Overrun (data.drop a ++ buffer)
    -- the separator of the tail lies behind the data
    · have hlt := hover.2
      simp only [hover, if_true, not_true_eq_false, false_and, iff_false, not_or, not_exists]
      refine ⟨by decide, fun signal' s' ⟨hok, _, htiled, _⟩ => ?_⟩
      split at hok
      · cases Except.ok.inj hok
        have hinside := htiled.inside _ (List.mem_append_right _ (List.mem_singleton_self _))
        dsimp only at hinside
        omega
      · cases hok
    · have hnext := ih (show a ≤ (data ++ buffer).length by omega) (data ++ buffer).length
      rw [hobject] at hnext
      have htiles : TilesFrom 0 (init ++ [(a, (data ++ buffer).length)]) (data ++ buffer).length :=
        hinit.concat (by omega)
      have hstart : ∀ p ∈ (getLastObject ⟨init ++ [(a, z)], data⟩).getLast?,
          p.1 ≤ (data ++ buffer).length := by
        rw [getLastObject, if_neg (by simp)]
        simp
        omega
      rw [if_neg hover, eq_true hover, true_and]
      constructor
      · intro h
        obtain hfull | ⟨signal', s', hok, -, -, -, hrest⟩ := h
        · cases hfull
        · cases Except.ok.inj hok
          by_cases hcomplete : Complete (data.drop a ++ buffer)
          · exact Or.inl hcomplete
          · rw [if_neg hcomplete] at hrest
            exact Or.inr (hnext.mp hrest)
      · intro h
        refine Or.inr ⟨_, _, rfl, rfl, htiles.tiled, fun _ => hstart, ?_⟩
        by_cases hcomplete : Complete (data.drop a ++ buffer)
        · rw [if_pos hcomplete]
          cases buffers with
          | nil => trivial
          | cons _ _ => exact Or.inl rfl
        · rw [if_neg hcomplete]
          exact hnext.mpr (h.resolve_left hcomplete)

/-- The first call is good, and the later ones as far as they are. -/
theorem callsGood_first (first : List UByte) (buffers : List (List UByte)) :
    CallsGood .SFR_NO_DATA empty (first :: buffers) ↔
      CallsGood (if Complete first then .SFR_FULL_DATA else .SFR_WAIT_DATA)
        ⟨if Overrun first then [(0, declaredLength first), (declaredLength first, first.length)]
          else [(0, first.length)], first⟩ buffers := by
  have hcall : addObjectsAndValidate empty .SFR_NO_DATA first = parseData empty first :=
    if_neg (by decide)
  have htiles : TilesFrom 0 (if Overrun first then
      [(0, declaredLength first), (declaredLength first, first.length)]
        else [(0, first.length)]) first.length := by
    split
    · rename_i hover
      exact ⟨rfl, Nat.zero_le _, rfl, le_of_lt hover.2, rfl⟩
    · exact ⟨rfl, Nat.zero_le _, rfl⟩
  rw [CallsGood, hcall, parseData_empty]
  constructor
  · intro h
    obtain hfull | ⟨signal', s', hok, -, -, -, hrest⟩ := h
    · cases hfull
    · cases Except.ok.inj hok
      exact hrest
  · intro h
    have hfirst : SafeReceiveSignal.SFR_NO_DATA ≠ .SFR_WAIT_DATA := by decide
    exact Or.inr ⟨_, _, rfl, rfl, TilesFrom.tiled htiles, fun hwait => absurd hwait hfirst, h⟩

/-- A receiving loop over arbitrary buffers keeps the data tiled exactly when the first buffer is
a whole record, or no later buffer runs past the end of the object it completes. -/
theorem callsGood_iff (buffers : List (List UByte)) :
    CallsGood .SFR_NO_DATA empty buffers ↔ StaysInside buffers := by
  cases buffers with
  | nil => exact ⟨fun _ => trivial, fun _ => trivial⟩
  | cons first buffers =>
    rw [StaysInside, callsGood_first]
    by_cases hcomplete : Complete first
    · rw [if_pos hcomplete, eq_true hcomplete, true_or]
      cases buffers with
      | nil => exact ⟨fun _ => trivial, fun _ => trivial⟩
      | cons _ _ => exact ⟨fun _ => trivial, fun _ => Or.inl rfl⟩
    · rw [if_neg hcomplete, eq_false hcomplete, false_or, lastStart]
      by_cases hover : Overrun first
      · rw [if_pos hover, if_pos hover]
        exact callsGood_wait [(0, declaredLength first)] ⟨rfl, Nat.zero_le _, rfl⟩
          (le_of_lt hover.2) _ _
      · rw [if_neg hover, if_neg hover]
        exact callsGood_wait [] rfl (Nat.zero_le _) _ _

/-- Two empty records. The second buffer runs past the end of the first record, and its last call
reads a header behind the data. -/
theorem twoRecords_not_callsGood :
    ¬CallsGood .SFR_NO_DATA empty [[23], [3, 3, 0, 0, 23, 3, 3, 0, 0]] := by
  intro h
  obtain hfull | ⟨signal, s, hfirst, -, -, -, h⟩ := h
  · cases hfull
  · have hwait : addObjectsAndValidate empty .SFR_NO_DATA [23] =
        .ok (.SFR_WAIT_DATA, ⟨[(0, 1)], [23]⟩) := rfl
    rw [hwait] at hfirst
    cases Except.ok.inj hfirst
    obtain hfull | ⟨signal, s, hsecond, -⟩ := h
    · cases hfull
    · have hfault : addObjectsAndValidate ⟨[(0, 1)], [23]⟩ .SFR_WAIT_DATA
          [3, 3, 0, 0, 23, 3, 3, 0, 0] = .error .outOfBounds := rfl
      rw [hfault] at hsecond
      cases hsecond

end SafeReceiveData

end QVPN
