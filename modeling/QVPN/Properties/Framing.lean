import QVPN.Driver.SafeReceive

/-!
# Framing of a received stream

A list of well-formed records is cut into receive buffers. The receiver frames the records
when it stops behind the first buffer that ends on a record boundary, with exactly the records
received so far as its objects.

It does so only for cuts whose first usable boundary comes early. A buffer that runs over the
end of the record under reassembly puts the separator of its tail behind the received bytes,
and from then on bytes are missing from every result.
-/

namespace QVPN

open Memory

namespace SafeReceiveData

/-- The objects, by their separators. -/
theorem objects_eq (s : SafeReceiveData) :
    s.objects = s.separators.mapM fun p => slice s.data p.1 p.2 :=
  mapM_range_readAt s.separators fun p => slice s.data p.1 p.2

/-- The total distance of separators, when every object is a range of the data. -/
def span (separators : List (ℕ × ℕ)) : ℤ := (separators.map fun p => (p.2 : ℤ) - p.1).sum

/-- The objects fill the distances of their separators. -/
theorem length_of_mapM_slice {data : List UByte} {separators : List (ℕ × ℕ)}
    {objs : List (List UByte)}
    (h : separators.mapM (fun p => slice data p.1 p.2) = .ok objs) :
    (objs.flatten.length : ℤ) = span separators := by
  induction separators generalizing objs with
  | nil =>
    cases Except.ok.inj h
    rfl
  | cons p separators ih =>
    rw [List.mapM_cons] at h
    obtain ⟨object, hobject, h⟩ := bind_eq_ok_iff.mp h
    obtain ⟨objects, hobjects, h⟩ := bind_eq_ok_iff.mp h
    cases Except.ok.inj h
    have hlen := slice_length hobject
    have hrest := ih hobjects
    simp only [List.flatten_cons, List.length_append, span, List.map_cons, List.sum_cons] at hrest ⊢
    omega

@[simp] theorem span_append (xs ys : List (ℕ × ℕ)) : span (xs ++ ys) = span xs + span ys := by
  simp [span]

@[simp] theorem span_singleton (b e : ℕ) : span [(b, e)] = e - b := by
  simp [span]

/-- Some bytes in front of the last object belong to no object. -/
def Short (s : SafeReceiveData) : Prop :=
  ∃ (init : List (ℕ × ℕ)) (a z : ℕ), s.separators = init ++ [(a, z)] ∧ span init < a

/-- The objects of short data are fewer bytes than were received. -/
theorem Short.objects_lt {s : SafeReceiveData} (h : s.Short) {objs : List (List UByte)}
    (hobjs : s.objects = .ok objs) : objs.flatten.length < s.data.length := by
  obtain ⟨init, a, z, hseps, hspan⟩ := h
  rw [objects_eq] at hobjs
  have hlen := length_of_mapM_slice hobjs
  rw [hseps, List.mapM_append] at hobjs
  obtain ⟨front, -, hobjs⟩ := bind_eq_ok_iff.mp hobjs
  obtain ⟨last, hlast, -⟩ := bind_eq_ok_iff.mp hobjs
  rw [List.mapM_cons] at hlast
  obtain ⟨object, hobject, -⟩ := bind_eq_ok_iff.mp hlast
  obtain ⟨-, -, hz, -⟩ := slice_eq_ok_iff.mp hobject
  rw [hseps, span_append, span_singleton] at hlen
  omega

/-- One continuation either extends the last object or leaves short data behind. -/
theorem addDataAndParse_cases {init : List (ℕ × ℕ)} {a z : ℕ} {data buffer : List UByte}
    {signal : SafeReceiveSignal} {s' : SafeReceiveData} (hspan : span init ≤ a)
    (h : addDataAndParse ⟨init ++ [(a, z)], data⟩ buffer = .ok (signal, s')) :
    (signal = .SFR_FULL_DATA ∨ signal = .SFR_WAIT_DATA) ∧
        s'.separators = init ++ [(a, (data ++ buffer).length)] ∨
      signal = .SFR_WAIT_DATA ∧ s'.Short := by
  rw [addDataAndParse_eq] at h
  obtain ⟨res, hres, h⟩ := bind_eq_ok_iff.mp h
  obtain ⟨stop, bpSignal, rfl, hsignal⟩ := TLS13Record.bytesParse_cases hres
  rcases hsignal with ⟨rfl, -⟩ | rfl | ⟨rfl, hstop⟩
  · cases Except.ok.inj h
    exact Or.inl ⟨Or.inl rfl, rfl⟩
  · cases Except.ok.inj h
    exact Or.inl ⟨Or.inr rfl, rfl⟩
  · dsimp only at h
    split at h
    · cases Except.ok.inj h
      refine Or.inr ⟨rfl, _, _, _, rfl, ?_⟩
      rw [span_append, span_singleton]
      omega
    · cases h

/-- Short data stays short under a continuation. -/
theorem Short.addDataAndParse {s s' : SafeReceiveData} {buffer : List UByte}
    {signal : SafeReceiveSignal} (h : s.Short)
    (hstep : s.addDataAndParse buffer = .ok (signal, s')) :
    s'.Short ∧ (signal = .SFR_FULL_DATA ∨ signal = .SFR_WAIT_DATA) := by
  obtain ⟨separators, data⟩ := s
  obtain ⟨init, a, z, rfl, hspan⟩ := h
  obtain ⟨hsignal, hseps⟩ | ⟨hsignal, hshort⟩ := addDataAndParse_cases hspan.le hstep
  · exact ⟨⟨init, a, _, hseps, hspan⟩, hsignal⟩
  · exact ⟨hshort, Or.inr hsignal⟩

/-- Once the data is full, no buffer is fed any more. -/
theorem safeRecv_full (s : SafeReceiveData) (buffers : List (List UByte)) :
    safeRecv .SFR_FULL_DATA s buffers = .ok (.SFR_FULL_DATA, s, buffers) := by
  cases buffers <;> rfl

/-- One more buffer while data is missing. -/
theorem safeRecv_wait_cons (s : SafeReceiveData) (buffer : List UByte)
    (buffers : List (List UByte)) :
    safeRecv .SFR_WAIT_DATA s (buffer :: buffers) = (do
      let (signal, s) ← s.addDataAndParse buffer
      safeRecv signal s buffers) := rfl

/-- Short data stays short over a whole run. -/
theorem Short.safeRecv {s s' : SafeReceiveData} {buffers rest : List (List UByte)}
    {signal : SafeReceiveSignal} (h : s.Short)
    (hrun : SafeReceiveData.safeRecv .SFR_WAIT_DATA s buffers = .ok (signal, s', rest)) :
    s'.Short := by
  induction buffers generalizing s with
  | nil =>
    cases Except.ok.inj hrun
    exact h
  | cons buffer buffers ih =>
    rw [safeRecv_wait_cons] at hrun
    obtain ⟨⟨next, t⟩, hstep, hrun⟩ := bind_eq_ok_iff.mp hrun
    obtain ⟨hshort, rfl | rfl⟩ := h.addDataAndParse hstep
    · cases Except.ok.inj ((safeRecv_full t buffers).symm.trans hrun)
      exact hshort
    · exact ih hshort hrun

/-- A record under reassembly: what is received behind the complete objects begins the record. -/
structure Awaiting (s : SafeReceiveData) (seps : List (ℕ × ℕ)) (done part : List UByte) : Prop where
  separators : s.separators = seps ++ [(done.length, (done ++ part).length)]
  data : s.data = done ++ part
  covered : span seps = done.length

/-- One more buffer for the record under reassembly. -/
theorem Awaiting.step {s : SafeReceiveData} {seps : List (ℕ × ℕ)}
    {done part record buffer more rest : List UByte} (h : s.Awaiting seps done part)
    (hrecord : TLS13Record.WellFormed record) (hcut : part ++ buffer ++ more = record ++ rest) :
    ((part ++ buffer).length < record.length → ∃ s', s.addDataAndParse buffer =
      .ok (.SFR_WAIT_DATA, s') ∧ s'.Awaiting seps done (part ++ buffer)) ∧
    ((part ++ buffer).length = record.length → ∃ s', s.addDataAndParse buffer =
      .ok (.SFR_FULL_DATA, s') ∧ s'.Awaiting seps done record) ∧
    (record.length < (part ++ buffer).length → ∀ signal s', s.addDataAndParse buffer =
      .ok (signal, s') → signal = .SFR_WAIT_DATA ∧ s'.Short) := by
  obtain ⟨separators, data⟩ := s
  obtain ⟨rfl, rfl, hcovered⟩ := h
  have hdrop : (done ++ part ++ buffer).drop done.length = part ++ buffer := by
    rw [List.append_assoc, List.drop_left]
  have hsize : (done ++ part ++ buffer).length - done.length = (part ++ buffer).length := by
    simp only [List.length_append]
    omega
  rw [addDataAndParse_eq]
  dsimp only
  rw [hdrop, hsize]
  refine ⟨?_, ?_, ?_⟩
  · intro hlt
    obtain ⟨stop, hparse⟩ := TLS13Record.bytesParse_partial hrecord hcut hlt
    rw [hparse]
    exact ⟨_, rfl, by rw [List.append_assoc], by rw [List.append_assoc], hcovered⟩
  · intro heq
    have hwhole : part ++ buffer = record := (List.append_inj hcut heq).1
    rw [TLS13Record.bytesParse_complete hrecord hcut heq.ge, if_pos heq.symm]
    exact ⟨_, rfl, by rw [List.append_assoc, hwhole], by rw [List.append_assoc, hwhole], hcovered⟩
  · intro hgt signal s' hstep
    rw [TLS13Record.bytesParse_complete hrecord hcut hgt.le, if_neg hgt.ne, ok_bind] at hstep
    dsimp only at hstep
    split at hstep
    · cases Except.ok.inj hstep
      refine ⟨rfl, _, _, _, rfl, ?_⟩
      rw [span_append, span_singleton, hcovered]
      simp only [List.length_append] at hgt ⊢
      omega
    · cases hstep

/-- The objects of the complete part are found in front of the record under reassembly. -/
theorem Awaiting.objects {s : SafeReceiveData} {seps : List (ℕ × ℕ)} {done part : List UByte}
    {front : List (List UByte)} (h : s.Awaiting seps done part)
    (hfront : seps.mapM (fun p => slice (done ++ part) p.1 p.2) = .ok front) :
    s.objects = .ok (front ++ [part]) := by
  have hlast : slice (done ++ part) (done.length : ℤ) ((done ++ part).length : ℤ) = .ok part :=
    slice_suffix _ _ _ _ rfl (by simp)
  rw [objects_eq, h.separators, h.data, List.mapM_append, hfront, ok_bind, List.mapM_cons, hlast]
  rfl

/-- Buffers that end on the boundary of the record under reassembly complete it. -/
theorem Awaiting.run_of_boundary {s : SafeReceiveData} {seps : List (ℕ × ℕ)}
    {done part record rest : List UByte} {buffers : List (List UByte)} {k : ℕ}
    (h : s.Awaiting seps done part) (hrecord : TLS13Record.WellFormed record)
    (hcut : part ++ buffers.flatten = record ++ rest) (hne : ∀ buffer ∈ buffers, buffer ≠ [])
    (hpart : part.length < record.length) (hk : k ≤ buffers.length)
    (hboundary : part ++ (buffers.take k).flatten = record) :
    ∃ s', safeRecv .SFR_WAIT_DATA s buffers = .ok (.SFR_FULL_DATA, s', buffers.drop k) ∧
      s'.Awaiting seps done record := by
  induction buffers generalizing s part k with
  | nil =>
    rw [List.take_nil, List.flatten_nil, List.append_nil] at hboundary
    exact absurd hpart (by simp [hboundary])
  | cons buffer buffers ih =>
    cases k with
    | zero =>
      rw [List.take_zero, List.flatten_nil, List.append_nil] at hboundary
      exact absurd hpart (by simp [hboundary])
    | succ k =>
      rw [List.take_succ_cons, List.flatten_cons, ← List.append_assoc] at hboundary
      rw [List.flatten_cons, ← List.append_assoc] at hcut
      obtain ⟨hpart, hcomplete, -⟩ := h.step hrecord hcut
      have hlength := congrArg List.length hboundary
      rw [List.length_append] at hlength
      rw [safeRecv_wait_cons]
      by_cases heq : (part ++ buffer).length = record.length
      · obtain ⟨s', hstep, hs'⟩ := hcomplete heq
        -- nothing but empty buffers fits between here and the boundary
        have hk0 : k = 0 := by
          by_contra hpos
          obtain ⟨next, later, rfl⟩ := List.exists_cons_of_length_pos
            (show 0 < buffers.length by simp only [List.length_cons] at hk; omega)
          obtain ⟨j, rfl⟩ := Nat.exists_eq_succ_of_ne_zero hpos
          have hnext := List.length_pos_iff.mpr (hne next (by simp))
          simp only [Nat.succ_eq_add_one, List.take_succ_cons, List.flatten_cons,
            List.length_append] at hlength heq
          omega
        refine ⟨s', ?_, hs'⟩
        rw [hstep, hk0]
        exact safeRecv_full s' buffers
      · obtain ⟨s', hstep, hs'⟩ := hpart (by omega)
        rw [hstep]
        exact ih hs' hcut (fun b hb => hne b (by simp [hb])) (by omega)
          (by simpa using hk) hboundary

/-- If no buffer ends on the boundary of the record under reassembly, full data is short. -/
theorem Awaiting.run_of_no_boundary {s s' : SafeReceiveData} {seps : List (ℕ × ℕ)}
    {done part record rest : List UByte} {buffers left : List (List UByte)}
    (h : s.Awaiting seps done part) (hrecord : TLS13Record.WellFormed record)
    (hcut : part ++ buffers.flatten = record ++ rest)
    (hnone : ∀ k, 0 < k → k ≤ buffers.length → part ++ (buffers.take k).flatten ≠ record)
    (hrun : safeRecv .SFR_WAIT_DATA s buffers = .ok (.SFR_FULL_DATA, s', left)) : s'.Short := by
  induction buffers generalizing s part with
  | nil => cases Except.ok.inj hrun
  | cons buffer buffers ih =>
    rw [List.flatten_cons, ← List.append_assoc] at hcut
    obtain ⟨hpart, -, hoverrun⟩ := h.step hrecord hcut
    rw [safeRecv_wait_cons] at hrun
    obtain ⟨⟨signal, t⟩, hstep, hrun⟩ := bind_eq_ok_iff.mp hrun
    rcases Nat.lt_trichotomy (part ++ buffer).length record.length with hlt | heq | hgt
    · obtain ⟨t', hstep', ht'⟩ := hpart hlt
      cases Except.ok.inj (hstep.symm.trans hstep')
      refine ih ht' hcut ?_ hrun
      intro k _ hk
      have hnext := hnone (k + 1) (by omega) (by simpa using hk)
      rwa [List.take_succ_cons, List.flatten_cons, ← List.append_assoc] at hnext
    · have hwhole := (List.append_inj hcut heq).1
      exact absurd (by simpa using hwhole) (hnone 1 (by omega) (by simp))
    · obtain ⟨rfl, hshort⟩ := hoverrun hgt signal t hstep
      exact hshort.safeRecv hrun

/-- The loop never changes the received bytes. -/
theorem parseLoop_data {last fuel start fin : ℕ} {s s' : SafeReceiveData}
    {signal : SafeReceiveSignal} (h : parseLoop last fuel s start fin = .ok (signal, s')) :
    s'.data = s.data := by
  induction fuel generalizing s start fin with
  | zero => cases h
  | succ fuel ih =>
    rw [parseLoop] at h
    obtain ⟨res, hres, h⟩ := bind_eq_ok_iff.mp h
    obtain ⟨stop, bpSignal, rfl, hsignal⟩ := TLS13Record.bytesParse_cases hres
    rcases hsignal with ⟨rfl, -⟩ | rfl | ⟨rfl, -⟩
    · cases Except.ok.inj h
      rfl
    · cases Except.ok.inj h
      rfl
    · obtain ⟨⟨first, second⟩, -, h⟩ := bind_eq_ok_iff.mp h
      have hdata := ih h
      exact hdata

/-- A first buffer is appended as it is. -/
theorem parseData_data {s s' : SafeReceiveData} {buffer : List UByte} {signal : SafeReceiveSignal}
    (h : s.parseData buffer = .ok (signal, s')) : s'.data = s.data ++ buffer := by
  obtain ⟨res, hres, h⟩ := bind_eq_ok_iff.mp h
  obtain ⟨stop, bpSignal, rfl, hsignal⟩ := TLS13Record.bytesParse_cases hres
  rcases hsignal with ⟨rfl, rfl⟩ | rfl | ⟨rfl, hstop⟩
  · obtain ⟨object, hobject, h⟩ := bind_eq_ok_iff.mp h
    cases Except.ok.inj h
    cases Except.ok.inj (hobject.symm.trans (slice_all buffer _ rfl))
    rfl
  · obtain ⟨object, hobject, h⟩ := bind_eq_ok_iff.mp h
    cases Except.ok.inj h
    cases Except.ok.inj (hobject.symm.trans (slice_all buffer _ rfl))
    rfl
  · obtain ⟨object, hobject, h⟩ := bind_eq_ok_iff.mp h
    obtain ⟨tail, htail, h⟩ := bind_eq_ok_iff.mp h
    cases Except.ok.inj h
    obtain ⟨-, -, -, rfl⟩ := slice_eq_ok_iff.mp hobject
    obtain ⟨-, -, -, rfl⟩ := slice_eq_ok_iff.mp htail
    have hrest : ((buffer.drop stop).take (buffer.length - stop)) = buffer.drop stop :=
      List.take_of_length_le (by simp)
    simp only [addObject, List.append_assoc]
    congr 1
    simp [hrest]

/-- Every received byte is kept, whatever the separators say. -/
theorem safeRecv_data {s s' : SafeReceiveData} {signal signal' : SafeReceiveSignal}
    {buffers left : List (List UByte)} (h : safeRecv signal s buffers = .ok (signal', s', left)) :
    s'.data ++ left.flatten = s.data ++ buffers.flatten := by
  induction buffers generalizing s signal with
  | nil =>
    cases Except.ok.inj h
    rfl
  | cons buffer buffers ih =>
    rw [safeRecv] at h
    split at h
    · cases Except.ok.inj h
      rfl
    · obtain ⟨⟨next, t⟩, hstep, h⟩ := bind_eq_ok_iff.mp h
      have hdata : t.data = s.data ++ buffer := by
        rw [addObjectsAndValidate] at hstep
        split at hstep
        · obtain ⟨⟨start, _⟩, -, hstep⟩ := bind_eq_ok_iff.mp hstep
          exact parseLoop_data hstep
        · exact parseData_data hstep
      rw [ih h, hdata, List.flatten_cons, List.append_assoc]

/-- The first buffer, compared with the first record. -/
theorem parseData_first {record buffer more rest : List UByte}
    (hrecord : TLS13Record.WellFormed record) (hcut : buffer ++ more = record ++ rest) :
    (buffer.length < record.length → ∃ s, parseData empty buffer = .ok (.SFR_WAIT_DATA, s) ∧
      s.Awaiting [] [] buffer) ∧
    (buffer.length = record.length → ∃ s, parseData empty buffer = .ok (.SFR_FULL_DATA, s) ∧
      s.Awaiting [] [] record) ∧
    (∀ tail, tail ≠ [] → buffer = record ++ tail →
      ∃ s, parseData empty buffer = .ok (.SFR_WAIT_DATA, s) ∧
        s.Awaiting [(0, record.length)] record tail) := by
  refine ⟨?_, ?_, ?_⟩
  · intro hlt
    obtain ⟨stop, hparse⟩ := TLS13Record.bytesParse_partial hrecord hcut hlt
    have hall : slice buffer ((0 : ℕ) : ℤ) (buffer.length : ℤ) = .ok buffer := slice_all _ _ rfl
    rw [parseData, hparse, ok_bind]
    dsimp only
    rw [hall, ok_bind]
    exact ⟨_, rfl, by simp [addObject, empty], rfl, rfl⟩
  · intro heq
    obtain rfl : buffer = record := (List.append_inj hcut heq).1
    have hall : slice buffer ((0 : ℕ) : ℤ) (buffer.length : ℤ) = .ok buffer := slice_all _ _ rfl
    rw [parseData, TLS13Record.bytesParse_complete hrecord hcut le_rfl, if_pos rfl, ok_bind]
    dsimp only
    rw [hall, ok_bind]
    exact ⟨_, rfl, by simp [addObject, empty], rfl, rfl⟩
  · rintro tail hne rfl
    have hpos := List.length_pos_iff.mpr hne
    have hobject : slice (record ++ tail) ((0 : ℕ) : ℤ) (record.length : ℤ) = .ok record :=
      slice_prefix _ _ _ rfl
    have htail : slice (record ++ tail) (record.length : ℤ) ((record ++ tail).length : ℤ) =
        .ok tail := slice_suffix _ _ _ _ rfl (by simp)
    rw [parseData, TLS13Record.bytesParse_complete hrecord hcut (by simp),
      if_neg (by simp only [List.length_append]; omega), ok_bind]
    dsimp only
    rw [hobject, ok_bind, htail, ok_bind]
    exact ⟨_, rfl, by simp [addObject, empty], rfl, by simp⟩

end SafeReceiveData

open SafeReceiveData

/-- The receiver stops behind the first buffer that ends on a record boundary, and its objects
are the records received until then. -/
def Framed (records buffers : List (List UByte)) : Prop :=
  ∃ k j s, 0 < k ∧
    safeRecv .SFR_NO_DATA empty buffers = .ok (.SFR_FULL_DATA, s, buffers.drop k) ∧
    (buffers.take k).flatten = (records.take j).flatten ∧ s.objects = .ok (records.take j) ∧
    ∀ k', 0 < k' → k' < k → ∀ j', (buffers.take k').flatten ≠ (records.take j').flatten

/-- Some buffer ends right behind the first record; or the first buffer ends inside the second
record, and some buffer ends right behind that one. -/
def EarlyBoundary (records buffers : List (List UByte)) : Prop :=
  (∃ k, (buffers.take k).flatten = (records.take 1).flatten) ∨
    ((records.take 1).flatten.length < (buffers.take 1).flatten.length ∧
      (buffers.take 1).flatten.length < (records.take 2).flatten.length ∧
      ∃ k, (buffers.take k).flatten = (records.take 2).flatten)

/-- Buffers in front of a buffer hold fewer bytes than with it. -/
theorem length_flatten_take_lt {buffers : List (List UByte)} (hne : ∀ b ∈ buffers, b ≠ [])
    {k k' : ℕ} (hlt : k' < k) (hk : k ≤ buffers.length) :
    (buffers.take k').flatten.length < (buffers.take k).flatten.length := by
  have hcut : buffers.take k = buffers.take k' ++ (buffers.drop k').take (k - k') := by
    rw [← List.take_add, Nat.add_sub_cancel' hlt.le]
  have hdrop : 0 < (buffers.drop k').length := by
    rw [List.length_drop]
    omega
  obtain ⟨next, later, hnext⟩ := List.exists_cons_of_length_pos hdrop
  obtain ⟨j, hj⟩ := Nat.exists_eq_succ_of_ne_zero (Nat.sub_ne_zero_of_lt hlt)
  have hmem : next ∈ buffers := List.drop_subset k' buffers (by simp [hnext])
  have hpos := List.length_pos_iff.mpr (hne next hmem)
  rw [hcut, hnext, hj, Nat.succ_eq_add_one, List.take_succ_cons, List.flatten_append,
    List.flatten_cons, List.length_append, List.length_append]
  omega

/-- A boundary of the buffers can be named by a number of buffers that exists. -/
theorem exists_take_le {buffers : List (List UByte)} {bytes : List UByte}
    (h : ∃ k, (buffers.take k).flatten = bytes) :
    ∃ k ≤ buffers.length, (buffers.take k).flatten = bytes := by
  obtain ⟨k, hk⟩ := h
  refine ⟨min k buffers.length, Nat.min_le_right _ _, ?_⟩
  rwa [← List.take_eq_take_min]

/-- A stop behind the first or the second record is a stop at the first boundary. -/
theorem framed_of_stop {records buffers : List (List UByte)} {s : SafeReceiveData} {k j : ℕ}
    (hne : ∀ b ∈ buffers, b ≠ []) (hk : k ≤ buffers.length) (hpos : 0 < k)
    (hrun : safeRecv .SFR_NO_DATA empty buffers = .ok (.SFR_FULL_DATA, s, buffers.drop k))
    (hboundary : (buffers.take k).flatten = (records.take j).flatten)
    (hobjects : s.objects = .ok (records.take j))
    (hearlier : ∀ j' < j, (records.take j').flatten.length < (buffers.take 1).flatten.length) :
    Framed records buffers := by
  refine ⟨k, j, s, hpos, hrun, hboundary, hobjects, ?_⟩
  intro k' hpos' hlt j' heq
  have hshorter := length_flatten_take_lt hne hlt hk
  have hfirst : (buffers.take 1).flatten.length ≤ (buffers.take k').flatten.length := by
    rcases Nat.eq_or_lt_of_le (show 1 ≤ k' from hpos') with rfl | h1
    · exact le_rfl
    · exact (length_flatten_take_lt hne h1 (by omega)).le
  by_cases hj : j' < j
  · have hless := hearlier j' hj
    rw [heq] at hfirst
    omega
  · have hprefix : (records.take j).flatten.length ≤ (records.take j').flatten.length := by
      rw [show j' = j + (j' - j) by omega, List.take_add, List.flatten_append, List.length_append]
      omega
    rw [← heq, ← hboundary] at hprefix
    omega

/-- The loop begins by parsing the first buffer on its own. -/
theorem safeRecv_first (buffer : List UByte) (buffers : List (List UByte)) :
    safeRecv .SFR_NO_DATA empty (buffer :: buffers) = (do
      let (signal, s) ← parseData empty buffer
      safeRecv signal s buffers) := rfl

/-- A boundary behind the first record is where the receiver stops. -/
theorem framed_of_first {record first : List UByte} {records buffers : List (List UByte)}
    (hrecord : TLS13Record.WellFormed record) (hne : ∀ b ∈ first :: buffers, b ≠ [])
    (hcut : first ++ buffers.flatten = record ++ records.flatten) {k : ℕ} (hk : k ≤ buffers.length)
    (hboundary : first ++ (buffers.take k).flatten = record) :
    Framed (record :: records) (first :: buffers) := by
  have hpos := List.length_pos_iff.mpr (hne first (by simp))
  have hlength := congrArg List.length hboundary
  rw [List.length_append] at hlength
  have hearlier : ∀ j' < 1, (((record :: records).take j').flatten.length) <
      (((first :: buffers).take 1).flatten.length) := by
    intro j' hj'
    obtain rfl : j' = 0 := by omega
    simpa using hpos
  obtain ⟨hpart, hcomplete, -⟩ := parseData_first hrecord hcut
  by_cases heq : first.length = record.length
  · obtain ⟨s, hparse, hs⟩ := hcomplete heq
    refine framed_of_stop (k := 1) hne (by simp) (by omega) ?_ ?_ (hs.objects rfl) hearlier
    · rw [safeRecv_first, hparse]
      exact safeRecv_full s buffers
    · simpa using (List.append_inj hcut heq).1
  · obtain ⟨s, hparse, hs⟩ := hpart (by omega)
    obtain ⟨s', hrun, hs'⟩ := hs.run_of_boundary hrecord hcut
      (fun b hb => hne b (List.mem_cons_of_mem _ hb)) (by omega) hk hboundary
    refine framed_of_stop (k := k + 1) hne (by simpa using hk) (by omega) ?_ ?_ (hs'.objects rfl)
      hearlier
    · rw [safeRecv_first, hparse]
      exact hrun
    · simpa using hboundary

/-- So is a boundary behind the second record, if the first buffer ends inside that record. -/
theorem framed_of_second {record tail next : List UByte} {records buffers : List (List UByte)}
    (hrecord : TLS13Record.WellFormed record) (hnext : TLS13Record.WellFormed next)
    (hne : ∀ b ∈ (record ++ tail) :: buffers, b ≠ []) (htail : tail ≠ [])
    (hcut : record ++ tail ++ buffers.flatten = record ++ (next ++ records.flatten))
    (hlt : tail.length < next.length) {k : ℕ} (hk : k ≤ buffers.length)
    (hboundary : tail ++ (buffers.take k).flatten = next) :
    Framed (record :: next :: records) ((record ++ tail) :: buffers) := by
  have hpos := List.length_pos_iff.mpr htail
  have hcut' : tail ++ buffers.flatten = next ++ records.flatten := by
    rwa [List.append_assoc, List.append_cancel_left_eq] at hcut
  obtain ⟨-, -, hoverrun⟩ := parseData_first hrecord hcut
  obtain ⟨s, hparse, hs⟩ := hoverrun tail htail rfl
  obtain ⟨s', hrun, hs'⟩ := hs.run_of_boundary hnext hcut'
    (fun b hb => hne b (List.mem_cons_of_mem _ hb)) hlt hk hboundary
  have hfront : slice (record ++ next) ((0 : ℕ) : ℤ) (record.length : ℤ) = .ok record :=
    slice_prefix _ _ _ rfl
  have hobjects : s'.objects = .ok [record, next] :=
    hs'.objects (show _ = Except.ok [record] by rw [List.mapM_cons, hfront]; rfl)
  refine framed_of_stop (k := k + 1) (j := 2) hne (by simpa using hk) (by omega) ?_ ?_ hobjects ?_
  · rw [safeRecv_first, hparse]
    exact hrun
  · simp [← hboundary]
  · intro j' hj'
    have hge := hrecord.length_ge
    rcases show j' = 0 ∨ j' = 1 by omega with rfl | rfl
    · simp
      omega
    · simpa using hpos

/-- Without an early boundary, full data is short. -/
theorem short_of_not_earlyBoundary {record first : List UByte} {records buffers left : List (List UByte)}
    {s : SafeReceiveData} (hwf : ∀ r ∈ record :: records, TLS13Record.WellFormed r)
    (hne : ∀ b ∈ first :: buffers, b ≠ [])
    (hcut : first ++ buffers.flatten = record ++ records.flatten)
    (hnone : ¬ EarlyBoundary (record :: records) (first :: buffers))
    (hrun : safeRecv .SFR_NO_DATA empty (first :: buffers) = .ok (.SFR_FULL_DATA, s, left)) :
    s.Short := by
  have hrecord := hwf record (by simp)
  obtain ⟨hpart, -, hoverrun⟩ := parseData_first hrecord hcut
  rw [EarlyBoundary, not_or, not_exists] at hnone
  obtain ⟨hfirst, hsecond⟩ := hnone
  have hfirst' (k : ℕ) : first ++ (buffers.take k).flatten ≠ record := by
    simpa using hfirst (k + 1)
  rw [safeRecv_first] at hrun
  rcases Nat.lt_trichotomy first.length record.length with hlt | heq | hgt
  · obtain ⟨t, hparse, ht⟩ := hpart hlt
    rw [hparse] at hrun
    exact ht.run_of_no_boundary hrecord hcut (fun k _ _ => hfirst' k) hrun
  · have hwhole := (List.append_inj hcut heq).1
    exact absurd (by simpa using hwhole) (hfirst' 0)
  · obtain ⟨tail, rfl, hrest⟩ := (List.append_eq_append_iff.mp hcut).resolve_left (by
      rintro ⟨more, hrecord', -⟩
      rw [hrecord', List.length_append] at hgt
      omega)
    have htail : tail ≠ [] := by
      rintro rfl
      simp at hgt
    obtain ⟨t, hparse, ht⟩ := hoverrun tail htail rfl
    rw [hparse] at hrun
    cases records with
    | nil =>
      rw [List.flatten_nil] at hrest
      exact absurd (List.append_eq_nil_iff.mp hrest.symm).1 htail
    | cons next records =>
      refine ht.run_of_no_boundary (hwf next (by simp)) hrest.symm ?_ hrun
      intro k hk hle heq
      have hsome := length_flatten_take_lt (fun b hb => hne b (List.mem_cons_of_mem _ hb)) hk hle
      have hlength := congrArg List.length heq
      rw [List.length_append] at hlength
      apply hsecond
      refine ⟨by simpa using hgt, ?_, k + 1, ?_⟩
      · simp
        omega
      · simpa using heq

/-- The receiver frames a cut of well-formed records exactly if a boundary comes early. -/
theorem framed_iff_earlyBoundary (records buffers : List (List UByte)) (hrecords : records ≠ [])
    (hwf : ∀ record ∈ records, TLS13Record.WellFormed record)
    (hbuffers : ∀ buffer ∈ buffers, buffer ≠ []) (hcut : buffers.flatten = records.flatten) :
    Framed records buffers ↔ EarlyBoundary records buffers := by
  obtain ⟨record, records, rfl⟩ := List.exists_cons_of_ne_nil hrecords
  have hge := (hwf record (by simp)).length_ge
  have hsome : buffers ≠ [] := by
    rintro rfl
    have hlength := congrArg List.length hcut
    simp only [List.flatten_nil, List.length_nil, List.flatten_cons, List.length_append] at hlength
    omega
  obtain ⟨first, buffers, rfl⟩ := List.exists_cons_of_ne_nil hsome
  rw [List.flatten_cons, List.flatten_cons] at hcut
  constructor
  · rintro ⟨k, j, s, -, hrun, hboundary, hobjects, -⟩
    by_contra hnone
    have hshort := short_of_not_earlyBoundary hwf hbuffers hcut hnone hrun
    have hdata := safeRecv_data hrun
    have hreceived : s.data = ((first :: buffers).take k).flatten := by
      rw [show (empty.data ++ (first :: buffers).flatten) = ((first :: buffers).take k).flatten ++
        ((first :: buffers).drop k).flatten by
          rw [← List.flatten_append, List.take_append_drop]; rfl] at hdata
      exact List.append_cancel_right hdata
    have hless := hshort.objects_lt hobjects
    rw [hreceived, hboundary] at hless
    exact lt_irrefl _ hless
  · rintro (hfirst | ⟨hlong, hinside, hsecond⟩)
    · obtain ⟨k, hk, hboundary⟩ := exists_take_le hfirst
      cases k with
      | zero =>
        have hlength := congrArg List.length hboundary
        simp only [List.take_zero, List.flatten_nil, List.length_nil, List.take_succ_cons,
          List.flatten_cons, List.append_nil] at hlength
        omega
      | succ k =>
        exact framed_of_first (hwf record (by simp)) hbuffers hcut (by simpa using hk)
          (by simpa using hboundary)
    · obtain ⟨k, hk, hboundary⟩ := exists_take_le hsecond
      cases records with
      | nil =>
        simp only [List.take_succ_cons, List.take_nil, List.take_zero] at hlong hinside
        omega
      | cons next records =>
        have hlong' : record.length < first.length := by simpa using hlong
        obtain ⟨tail, rfl, -⟩ := (List.append_eq_append_iff.mp hcut).resolve_left (by
          rintro ⟨more, hrecord, -⟩
          rw [hrecord, List.length_append] at hlong'
          omega)
        cases k with
        | zero =>
          have hlength := congrArg List.length hboundary
          simp only [List.take_zero, List.flatten_nil, List.length_nil, List.take_succ_cons,
            List.flatten_cons, List.append_nil, List.length_append] at hlength
          omega
        | succ k =>
          refine framed_of_second (hwf record (by simp)) (hwf next (by simp)) hbuffers ?_ hcut ?_
            (k := k) (by simpa using hk) (by simpa using hboundary)
          · rintro rfl
            simp at hlong'
          · simpa using hinside

/-- A record without a body. -/
def emptyRecord : List UByte := [23, 3, 3, 0, 0]

theorem emptyRecord_wellFormed : TLS13Record.WellFormed emptyRecord :=
  ⟨[23, 3, 3], [], rfl, rfl, by decide⟩

/-- Two records that arrive in one buffer are not framed. -/
theorem twoRecords_not_framed :
    (∀ record ∈ [emptyRecord, emptyRecord], TLS13Record.WellFormed record) ∧
      [emptyRecord ++ emptyRecord].flatten = [emptyRecord, emptyRecord].flatten ∧
      ¬ Framed [emptyRecord, emptyRecord] [emptyRecord ++ emptyRecord] := by
  refine ⟨by simpa using emptyRecord_wellFormed, rfl, ?_⟩
  rintro ⟨k, j, s, -, hrun, -⟩
  cases Except.ok.inj hrun

/-- Two records are framed if the first buffer ends inside the second. -/
theorem framed_iff_earlyBoundary_inside :
    let records := [emptyRecord, emptyRecord]
    let buffers := [[23, 3, 3, 0, 0, 23, 3], [3, 0, 0]]
    (Framed records buffers ↔ EarlyBoundary records buffers) ∧ EarlyBoundary records buffers := by
  refine ⟨framed_iff_earlyBoundary [emptyRecord, emptyRecord]
    [[23, 3, 3, 0, 0, 23, 3], [3, 0, 0]] (by simp) (by simpa using emptyRecord_wellFormed)
    (by simp) rfl, Or.inr ⟨by decide, by decide, 2, rfl⟩⟩

end QVPN
