import QVPN.Structures.Http

/-!
# The value of an HTTP header field

The number of characters that are cut out behind a name is the position of the next delimiter,
counted from the begin of the message instead of from the value. The piece is the value if there is
no delimiter to count to, or if the count happens to end where the value does. A name that does not
occur is looked for at the end of the message, and cutting behind it throws. In messages of 2 GiB
and more the position wraps.
-/

namespace QVPN

open Components HttpTools

variable (tolower : UByte → UByte) (delim : List UByte) (text name : StringView)

/-- The text between the first occurrence of a name and the next delimiter, nothing if the name does
not occur. -/
def headerValue : List UByte :=
  match occurrence tolower text.chars name.chars with
  | some p => front delim (text.chars.drop (p + name.chars.length))
  | none => []

/-- Where the number of characters is right all the same. `p` is the place of the name, and `e` the
distance from it to the next delimiter. -/
def CountFits : Prop :=
  match occurrence tolower text.chars name.chars with
  | some p =>
    if p < 2 ^ 31 then
      find delim (text.chars.drop p) = none ∨ name.chars = [] ∨
        ∃ e, find delim (text.chars.drop p) = some e ∧ e < name.chars.length ∧
          min (p + e) (text.chars.length - (p + name.chars.length)) =
            (headerValue tolower delim text name).length
    else
      -- the place is wrapped to `s`, and the value stands there once more
      ∃ s e : ℕ, (p : ℤ).bmod (2 ^ 32) = s ∧ find delim (text.chars.drop s) = some e ∧
        s + e = (headerValue tolower delim text name).length ∧
        headerValue tolower delim text name <+: text.chars.drop (s + name.chars.length)
  | none =>
    (text.chars.length : ℤ).bmod (2 ^ 32) + name.chars.length = text.chars.length ∨
      (text.chars.length : ℤ).bmod (2 ^ 32) = 0 ∧ name.chars.length ≤ text.chars.length ∧
        delim <+: text.chars

section Substr

variable {delim : List UByte} {text name : StringView}

/-- The piece behind a place that did not become negative. -/
theorem StringView.substr_behind (n : ℕ) {s : ℕ} (hs : s ≤ text.chars.length) (hn : n < 2 ^ 63) :
    text.substr (((s : ℤ) + n) % 2 ^ 64).toNat (text.find delim ((s : ℤ) % 2 ^ 64).toNat) =
      if s + n ≤ text.chars.length then
        .ok (match Components.find delim (text.chars.drop s) with
          | none => text.chars.drop (s + n)
          | some e => (text.chars.drop (s + n)).take (e + s))
      else .error .outOfRange := by
  have hsize := text.size_lt
  have hstart : (((s : ℤ) + n) % 2 ^ 64).toNat = s + n := by omega
  have hfrom : ((s : ℤ) % 2 ^ 64).toNat = s := by omega
  have hfind : text.find delim s = (Components.find delim (text.chars.drop s)).map (· + s) :=
    if_pos hs
  rw [hstart, hfrom, hfind]
  cases Components.find delim (text.chars.drop s) with
  | none => rfl
  | some e => rfl

/-- The piece behind a place that became negative: there is no delimiter behind it. -/
theorem StringView.substr_wrapped (n : ℕ) {k : ℕ} (hpos : 0 < k) (hk : k ≤ 2 ^ 31)
    (hn : n < 2 ^ 63) :
    text.substr ((-(k : ℤ) + n) % 2 ^ 64).toNat (text.find delim (-(k : ℤ) % 2 ^ 64).toNat) =
      if k ≤ n ∧ n - k ≤ text.chars.length then .ok (text.chars.drop (n - k))
      else .error .outOfRange := by
  have hsize := text.size_lt
  have hfind : text.find delim (-(k : ℤ) % 2 ^ 64).toNat = none := if_neg (by omega)
  rw [hfind, StringView.substr]
  by_cases hkn : k ≤ n
  · have hstart : ((-(k : ℤ) + n) % 2 ^ 64).toNat = n - k := by omega
    rw [hstart]
    exact ite_congr (by simp [hkn]) (fun _ => rfl) (fun _ => rfl)
  · rw [if_neg (by omega), if_neg (by omega)]

end Substr

section Piece

variable {tolower delim text name} {p : ℕ}

/-- A narrowed place is not behind the place, and either a place or less than one. -/
theorem narrowed_cases (n : ℕ) : (∃ s : ℕ, (n : ℤ).bmod (2 ^ 32) = s ∧ s ≤ n) ∨
    ∃ k : ℕ, (n : ℤ).bmod (2 ^ 32) = -k ∧ 0 < k ∧ k ≤ 2 ^ 31 := by
  have hlow : -(2 ^ 31 : ℤ) ≤ (n : ℤ).bmod (2 ^ 32) := Int.le_bmod (by omega)
  have hle : (n : ℤ).bmod (2 ^ 32) ≤ n := by
    rw [Int.bmod_def]
    split <;> omega
  by_cases hneg : (n : ℤ).bmod (2 ^ 32) < 0
  · obtain ⟨k, hk⟩ := Int.eq_ofNat_of_zero_le (show 0 ≤ -(n : ℤ).bmod (2 ^ 32) by omega)
    exact Or.inr ⟨k, by omega, by omega, by omega⟩
  · obtain ⟨s, hs⟩ := Int.eq_ofNat_of_zero_le (Int.not_lt.mp hneg)
    exact Or.inl ⟨s, hs, by omega⟩

/-- What a lookup cuts out. -/
theorem getHttpHeaderPiece_eq :
    getHttpHeaderPiece tolower delim text name =
      let p := (occurrence tolower text.chars name.chars).getD text.chars.length
      text.substr (((p : ℤ).bmod (2 ^ 32) + name.chars.length) % 2 ^ 64).toNat
        (text.find delim ((p : ℤ).bmod (2 ^ 32) % 2 ^ 64).toNat) := by
  rw [getHttpHeaderPiece, caseFreeSearch, Int32.toInt_ofNat']
  rfl

/-- A name that occurs ends inside the text. -/
theorem occurrence_add_length_le (h : occurrence tolower text.chars name.chars = some p) :
    p + name.chars.length ≤ text.chars.length := by
  have hle := find_add_length_le h
  rwa [List.length_map, List.length_map] at hle

/-- An empty name occurs at the begin. -/
theorem occurrence_nil (h : occurrence tolower text.chars name.chars = some p)
    (hname : name.chars = []) : p = 0 := by
  rw [occurrence, hname, List.map_nil, find_nil] at h
  exact (Option.some.inj h).symm

/-- A front is taken by its length, or as the whole. -/
theorem take_eq_iff_of_begins {v rest : List UByte} (h : v <+: rest) (m : ℕ) :
    rest.take m = v ↔ min m rest.length = v.length := by
  have hlength := h.length_le
  conv_lhs => rw [List.prefix_iff_eq_take.mp h]
  rw [List.take_eq_take_iff, Nat.min_eq_left hlength]

/-- What follows the name, seen from the name. -/
theorem drop_behind_name (p n : ℕ) : text.chars.drop (p + n) = (text.chars.drop p).drop n :=
  List.drop_drop.symm

/-- At a place that is not narrowed the count fits without a delimiter, without a name, or if the
delimiter begins in the name and the count happens to be the length of the value. -/
theorem piece_iff_of_lt (hdelim : delim ≠ [])
    (h : occurrence tolower text.chars name.chars = some p) (hp : p < 2 ^ 31) :
    getHttpHeaderPiece tolower delim text name = .ok (headerValue tolower delim text name) ↔
      find delim (text.chars.drop p) = none ∨ name.chars = [] ∨
        ∃ e, find delim (text.chars.drop p) = some e ∧ e < name.chars.length ∧
          min (p + e) (text.chars.length - (p + name.chars.length)) =
            (headerValue tolower delim text name).length := by
  have hend := occurrence_add_length_le h
  have hplace : (p : ℤ).bmod (2 ^ 32) = p := Int.bmod_eq_of_le (by omega) (by omega)
  have hvalue : headerValue tolower delim text name =
      front delim (text.chars.drop (p + name.chars.length)) := by rw [headerValue, h]
  have hbegins := prefix_front delim (text.chars.drop (p + name.chars.length))
  rw [getHttpHeaderPiece_eq, h]
  dsimp only [Option.getD_some]
  rw [hplace, StringView.substr_behind _ (by omega) name.size_lt, if_pos hend, Except.ok.injEq,
    hvalue]
  cases hfind : find delim (text.chars.drop p) with
  | none =>
    have hrest := find_drop_eq_none hfind name.chars.length
    rw [← drop_behind_name] at hrest
    exact iff_of_true (by rw [front, hrest]) (Or.inl rfl)
  | some e =>
    dsimp only
    rw [take_eq_iff_of_begins hbegins, List.length_drop, Nat.add_comm e p]
    simp only [reduceCtorEq, false_or, Option.some.injEq, exists_eq_left']
    by_cases hinside : e < name.chars.length
    · have hne : name.chars ≠ [] := List.ne_nil_of_length_pos (by omega)
      simp only [hne, hinside, true_and, false_or]
    · -- the value ends where the delimiter begins, so the count is too large by the place behind the
      -- name
      have hrest := find_drop hfind (Nat.le_of_not_lt hinside)
      rw [← drop_behind_name] at hrest
      have hlength := front_length hrest
      have hfits := find_add_length_le hrest
      have hpos := List.length_pos_iff.mpr hdelim
      rw [List.length_drop] at hfits
      rw [hlength]
      simp only [hinside, false_and, or_false]
      constructor
      · intro hcount
        exact List.length_eq_zero_iff.mp (by omega)
      · intro hname
        have hzero := occurrence_nil h hname
        rw [hname, List.length_nil] at hfits ⊢
        omega

/-- At a place that is narrowed the count fits if it is the length of the value, and the value stands
behind the narrowed place as well. -/
theorem piece_iff_of_ge (h : occurrence tolower text.chars name.chars = some p) (hp : ¬ p < 2 ^ 31) :
    getHttpHeaderPiece tolower delim text name = .ok (headerValue tolower delim text name) ↔
      ∃ s e : ℕ, (p : ℤ).bmod (2 ^ 32) = s ∧ find delim (text.chars.drop s) = some e ∧
        s + e = (headerValue tolower delim text name).length ∧
        headerValue tolower delim text name <+: text.chars.drop (s + name.chars.length) := by
  have hend := occurrence_add_length_le h
  have hvalue : (headerValue tolower delim text name).length + (p + name.chars.length) ≤
      text.chars.length := by
    have hlength := (prefix_front delim (text.chars.drop (p + name.chars.length))).length_le
    rw [List.length_drop] at hlength
    rw [headerValue, h]
    dsimp only
    omega
  rw [getHttpHeaderPiece_eq, h]
  dsimp only [Option.getD_some]
  generalize headerValue tolower delim text name = v at hvalue ⊢
  have hhigh : (p : ℤ).bmod (2 ^ 32) < 2 ^ 31 := Int.bmod_lt (by omega)
  cases narrowed_cases p with
  | inl hplace =>
    obtain ⟨s, hs, hle⟩ := hplace
    rw [hs, StringView.substr_behind _ (by omega) name.size_lt, if_pos (by omega), Except.ok.injEq]
    simp only [Nat.cast_inj, exists_and_left, exists_eq_left']
    have hlonger : v.length < (text.chars.drop (s + name.chars.length)).length := by
      rw [List.length_drop]
      omega
    cases find delim (text.chars.drop s) with
    | none =>
      apply iff_of_false
      · intro hsame
        exact Nat.ne_of_gt hlonger (congrArg List.length hsame)
      · rintro ⟨e, he, -⟩
        cases he
    | some e =>
      simp only [Option.some.injEq, exists_eq_left']
      constructor
      · intro htake
        have hbegins := List.take_prefix (e + s) (text.chars.drop (s + name.chars.length))
        have hlength := congrArg List.length htake
        rw [htake] at hbegins
        rw [List.length_take] at hlength
        exact ⟨by omega, hbegins⟩
      · rintro ⟨hcount, hbegins⟩
        rw [take_eq_iff_of_begins hbegins]
        omega
  | inr hplace =>
    obtain ⟨k, hk, hpos, hle⟩ := hplace
    rw [hk, StringView.substr_wrapped _ hpos hle name.size_lt]
    apply iff_of_false
    · split
      · intro hsame
        have hlength := congrArg List.length (Except.ok.inj hsame)
        rw [List.length_drop] at hlength
        omega
      · intro hsame
        cases hsame
    · rintro ⟨s, -, hs, -⟩
      omega

/-- A name that does not occur is looked for at the end, and nothing is cut out only if the end is
narrowed. -/
theorem piece_iff_of_none (h : occurrence tolower text.chars name.chars = none) :
    getHttpHeaderPiece tolower delim text name = .ok (headerValue tolower delim text name) ↔
      (text.chars.length : ℤ).bmod (2 ^ 32) + name.chars.length = text.chars.length ∨
        (text.chars.length : ℤ).bmod (2 ^ 32) = 0 ∧ name.chars.length ≤ text.chars.length ∧
          delim <+: text.chars := by
  have hvalue : headerValue tolower delim text name = [] := by rw [headerValue, h]
  rw [getHttpHeaderPiece_eq, h, hvalue]
  dsimp only [Option.getD_none]
  cases narrowed_cases text.chars.length with
  | inl hplace =>
    obtain ⟨s, hs, hle⟩ := hplace
    have hbegin : ((s : ℤ) = 0 ∧ name.chars.length ≤ text.chars.length ∧ delim <+: text.chars) ↔
        s = 0 ∧ name.chars.length ≤ text.chars.length ∧
          find delim (text.chars.drop s) = some 0 := by
      rw [Int.natCast_eq_zero]
      apply and_congr_right
      intro hzero
      rw [hzero, List.drop_zero, find_eq_zero_iff]
    rw [hs, hbegin, StringView.substr_behind _ hle name.size_lt]
    by_cases hinside : s + name.chars.length ≤ text.chars.length
    · rw [if_pos hinside, Except.ok.injEq]
      cases find delim (text.chars.drop s) with
      | none =>
        dsimp only
        rw [List.drop_eq_nil_iff]
        simp only [reduceCtorEq, and_false, or_false]
        omega
      | some e =>
        dsimp only
        rw [List.take_eq_nil_iff, List.drop_eq_nil_iff, Option.some.injEq]
        omega
    · rw [if_neg hinside]
      exact iff_of_false nofun (by omega)
  | inr hplace =>
    obtain ⟨k, hk, hpos, hle⟩ := hplace
    rw [hk, StringView.substr_wrapped _ hpos hle name.size_lt]
    by_cases hinside : k ≤ name.chars.length ∧ name.chars.length - k ≤ text.chars.length
    · rw [if_pos hinside, Except.ok.injEq, List.drop_eq_nil_iff]
      omega
    · rw [if_neg hinside]
      exact iff_of_false nofun (by omega)

/-- A lookup returns the value exactly where its count fits. -/
theorem piece_iff (hdelim : delim ≠ []) :
    getHttpHeaderPiece tolower delim text name = .ok (headerValue tolower delim text name) ↔
      CountFits tolower delim text name := by
  rw [CountFits]
  cases h : occurrence tolower text.chars name.chars with
  | some p =>
    dsimp only
    split
    · next hp => exact piece_iff_of_lt hdelim h hp
    · next hp => exact piece_iff_of_ge h hp
  | none => exact piece_iff_of_none h

end Piece

/-- The two lookups return the text between a name and the next delimiter, and nothing for a name
that does not occur, exactly where the count fits. -/
theorem headerLookup_iff :
    (getHttpHeaderLine tolower text name = .ok (headerValue tolower [13, 10] text name) ↔
      CountFits tolower [13, 10] text name) ∧
    (getHttpHeaderBlock tolower text name = .ok (headerValue tolower [32] text name) ↔
      CountFits tolower [32] text name) :=
  ⟨piece_iff (List.cons_ne_nil _ _), piece_iff (List.cons_ne_nil _ _)⟩

/-- In `Host: a CR LF X: b` the line of `host:` goes on into the next header, in `HTTP/1 200 b` the
block of `http/` goes on into the next block, and a name that does not occur throws. -/
theorem headerLookup_too_long :
    getHttpHeaderLine asciiLower ⟨[72, 111, 115, 116, 58, 32, 97, 13, 10, 88, 58, 32, 98], by decide⟩
        ⟨[104, 111, 115, 116, 58], by decide⟩ = .ok [32, 97, 13, 10, 88, 58, 32] ∧
      headerValue asciiLower [13, 10]
        ⟨[72, 111, 115, 116, 58, 32, 97, 13, 10, 88, 58, 32, 98], by decide⟩
        ⟨[104, 111, 115, 116, 58], by decide⟩ = [32, 97] ∧
      getHttpHeaderBlock asciiLower
        ⟨[72, 84, 84, 80, 47, 49, 32, 50, 48, 48, 32, 98], by decide⟩
        ⟨[104, 116, 116, 112, 47], by decide⟩ = .ok [49, 32, 50, 48, 48, 32] ∧
      headerValue asciiLower [32] ⟨[72, 84, 84, 80, 47, 49, 32, 50, 48, 48, 32, 98], by decide⟩
        ⟨[104, 116, 116, 112, 47], by decide⟩ = [49] ∧
      getHttpHeaderLine asciiLower ⟨[97], by decide⟩ ⟨[98], by decide⟩ = .error .outOfRange ∧
      headerValue asciiLower [13, 10] ⟨[97], by decide⟩ ⟨[98], by decide⟩ = [] := by
  decide

end QVPN
