import Mathlib.Algebra.Group.Int.Defs
import Mathlib.Algebra.Group.Nat.Defs
import Mathlib.Data.Int.Notation
import Mathlib.Data.List.TakeWhile
import Mathlib.Data.Nat.Notation

/-!
# Numbers in text

The conversion of a text to a machine integer skips white space, takes a sign, and reads as many
decimal digits as there are. What follows the digits does not matter. A text without digits is no
number, and a number that does not fit the integer is out of range.
-/

namespace Decimal

/-- Why a text is not converted. -/
inductive StoiError where
  | invalidArgument
  | outOfRange
  deriving DecidableEq, Repr

/-- White space is the blank and the control characters from the tabulator to the carriage
return. -/
def isSpace (c : Char) : Bool := c.toNat == 32 || (9 ≤ c.toNat && c.toNat ≤ 13)

/-- Whether a sign makes the number negative, and what follows the sign. -/
def splitSign : List Char → Bool × List Char
  | '-' :: s => (true, s)
  | '+' :: s => (false, s)
  | s => (false, s)

/-- The conversion to an integer of 32 bits. -/
def stoi (s : List Char) : Except StoiError ℤ :=
  let signed := splitSign (s.dropWhile isSpace)
  let digits := signed.2.takeWhile Char.isDigit
  if digits = [] then .error .invalidArgument
  else
    let magnitude : ℤ := Nat.ofDigitChars 10 digits 0
    let value := if signed.1 then -magnitude else magnitude
    if -2 ^ 31 ≤ value ∧ value < 2 ^ 31 then .ok value else .error .outOfRange

/-- A text of digits alone, for a number. -/
structure IsDecimal (s : List Char) (n : ℕ) : Prop where
  ne_nil : s ≠ []
  digits : ∀ c ∈ s, c.isDigit
  value : Nat.ofDigitChars 10 s 0 = n

/-- The signs, with whether the number is negative. -/
inductive IsSign : List Char → Bool → Prop where
  | none : IsSign [] false
  | plus : IsSign ['+'] false
  | minus : IsSign ['-'] true

/-- A text that begins with a number of 32 bits: behind white space and a sign stand digits, up to
the end or to anything else. -/
inductive IsNumeral : List Char → ℤ → Prop where
  | intro {blank sign digits rest : List Char} {negative : Bool} {n : ℕ} {z : ℤ}
      (hblank : ∀ c ∈ blank, isSpace c) (hsign : IsSign sign negative) (hdigits : IsDecimal digits n)
      (hrest : ∀ c ∈ rest.head?, c.isDigit = false) (hz : z = if negative then -(n : ℤ) else n)
      (hrange : -2 ^ 31 ≤ z ∧ z < 2 ^ 31) : IsNumeral (blank ++ (sign ++ (digits ++ rest))) z

theorem isDigit_iff {c : Char} : c.isDigit ↔ 48 ≤ c.toNat ∧ c.toNat ≤ 57 := by
  simp only [Char.isDigit, Bool.and_eq_true, decide_eq_true_eq, ge_iff_le]
  rfl

theorem not_isSpace_of_isDigit {c : Char} (h : c.isDigit) : isSpace c = false := by
  have hrange := isDigit_iff.mp h
  simp only [isSpace, Bool.or_eq_false_iff, Bool.and_eq_false_iff, beq_eq_false_iff_ne,
    decide_eq_false_iff_not]
  omega

/-- A text of digits begins with one. -/
theorem IsDecimal.exists_cons {s : List Char} {n : ℕ} (h : IsDecimal s n) :
    ∃ c tail, s = c :: tail ∧ c.isDigit := by
  obtain ⟨c, tail, rfl⟩ := List.exists_cons_of_ne_nil h.ne_nil
  exact ⟨c, tail, rfl, h.digits c List.mem_cons_self⟩

/-- A text of digits has nothing else. -/
theorem IsDecimal.not_mem {x : Char} {s : List Char} {n : ℕ} (h : IsDecimal s n)
    (hx : x.isDigit = false) : x ∉ s := by
  intro hmem
  rw [h.digits x hmem] at hx
  cases hx

/-- A text is its sign and what follows. -/
theorem splitSign_spec (s : List Char) :
    ∃ sign, IsSign sign (splitSign s).1 ∧ s = sign ++ (splitSign s).2 := by
  unfold splitSign
  split
  · exact ⟨_, .minus, rfl⟩
  · exact ⟨_, .plus, rfl⟩
  · exact ⟨_, .none, rfl⟩

/-- A sign in front of digits is split off. -/
theorem splitSign_append {sign s : List Char} {negative : Bool} {c : Char}
    (hsign : IsSign sign negative) (hdigit : c.isDigit) :
    splitSign (sign ++ c :: s) = (negative, c :: s) := by
  cases hsign with
  | plus => rfl
  | minus => rfl
  | none =>
    rw [List.nil_append]
    unfold splitSign
    split
    · next h =>
      cases h
      cases hdigit
    · next h =>
      cases h
      cases hdigit
    · rfl

/-- White space ends where a sign or a digit stands. -/
theorem dropWhile_isSpace {blank sign s : List Char} {negative : Bool} {c : Char}
    (hblank : ∀ x ∈ blank, isSpace x) (hsign : IsSign sign negative) (hdigit : c.isDigit) :
    (blank ++ (sign ++ c :: s)).dropWhile isSpace = sign ++ c :: s := by
  rw [List.dropWhile_append_of_pos hblank]
  cases hsign with
  | plus => rfl
  | minus => rfl
  | none => rw [List.nil_append, List.dropWhile_cons, not_isSpace_of_isDigit hdigit, if_neg nofun]

/-- The digits end where anything else stands. -/
theorem takeWhile_isDigit {digits rest : List Char} (hdigits : ∀ c ∈ digits, c.isDigit)
    (hrest : ∀ c ∈ rest.head?, c.isDigit = false) :
    (digits ++ rest).takeWhile Char.isDigit = digits := by
  rw [List.takeWhile_append_of_pos hdigits]
  cases rest with
  | nil => rw [List.takeWhile_nil, List.append_nil]
  | cons c rest => rw [List.takeWhile_cons, hrest c rfl, if_neg nofun, List.append_nil]

/-- What is converted begins with a number. -/
theorem stoi_eq_ok_iff {s : List Char} {z : ℤ} : stoi s = .ok z ↔ IsNumeral s z := by
  constructor
  · intro h
    obtain ⟨sign, hsign, hsplit⟩ := splitSign_spec (s.dropWhile isSpace)
    rw [stoi] at h
    dsimp only at h
    generalize (splitSign (s.dropWhile isSpace)).1 = negative at h hsign
    generalize (splitSign (s.dropWhile isSpace)).2 = body at h hsplit
    split at h
    · cases h
    · next hne =>
      generalize hz : (if negative = true then _ else _ : ℤ) = value at h
      split at h
      · next hrange =>
        cases Except.ok.inj h
        have hrest (c : Char) (hc : c ∈ (body.dropWhile Char.isDigit).head?) :
            c.isDigit = false := by
          have hhead := List.head?_dropWhile_not Char.isDigit body
          rw [hc] at hhead
          exact hhead
        rw [← List.takeWhile_append_dropWhile (p := isSpace) (l := s), hsplit,
          ← List.takeWhile_append_dropWhile (p := Char.isDigit) (l := body)]
        exact .intro (fun c hc => List.mem_takeWhile_imp hc) hsign
          ⟨hne, fun c hc => List.mem_takeWhile_imp hc, rfl⟩ hrest hz.symm hrange
      · cases h
  · intro h
    cases h with
    | intro hblank hsign hdigits hrest hz hrange =>
      obtain ⟨c, tail, rfl, hc⟩ := hdigits.exists_cons
      rw [stoi, List.cons_append, dropWhile_isSpace hblank hsign hc, splitSign_append hsign hc]
      dsimp only
      rw [← List.cons_append, takeWhile_isDigit hdigits.digits hrest, if_neg hdigits.ne_nil,
        hdigits.value, ← hz, if_pos hrange]

/-- A text of digits for a number that fits is converted to it. -/
theorem stoi_of_isDecimal {s : List Char} {n : ℕ} (h : IsDecimal s n) (hn : n < 2 ^ 31) :
    stoi s = .ok n := by
  have hnumeral : IsNumeral ([] ++ ([] ++ (s ++ []))) n :=
    .intro nofun .none h nofun rfl (by omega)
  rw [List.nil_append, List.nil_append, List.append_nil] at hnumeral
  exact stoi_eq_ok_iff.mpr hnumeral

/-- A number begins with white space, a sign or a digit. -/
theorem IsNumeral.head {s : List Char} {z : ℤ} (h : IsNumeral s z) :
    ∃ c tail, s = c :: tail ∧ (isSpace c ∨ c = '+' ∨ c = '-' ∨ c.isDigit) := by
  cases h with
  | @intro blank _ _ _ _ _ _ hblank hsign hdigits _ _ _ =>
    obtain ⟨d, tail, rfl, hd⟩ := hdigits.exists_cons
    cases blank with
    | cons c blank => exact ⟨c, _, rfl, .inl (hblank c List.mem_cons_self)⟩
    | nil =>
      cases hsign with
      | none => exact ⟨d, _, rfl, .inr (.inr (.inr hd))⟩
      | plus => exact ⟨_, _, rfl, .inr (.inl rfl)⟩
      | minus => exact ⟨_, _, rfl, .inr (.inr (.inl rfl))⟩

/-- The decimal digits of a number. -/
theorem isDecimal_toDigits (n : ℕ) : IsDecimal (Nat.toDigits 10 n) n where
  ne_nil := Nat.toDigits_ne_nil
  digits := fun _ hc => Nat.isDigit_of_mem_toDigits (by decide) (by decide) hc
  value := Nat.ofDigitChars_ten_toDigits

/-- Without its last digit a number is divided by ten, and a number of one digit is gone. -/
theorem dropLast_toDigits (n : ℕ) :
    (Nat.toDigits 10 n).dropLast = if n < 10 then [] else Nat.toDigits 10 (n / 10) := by
  split
  · next h => rw [Nat.toDigits_of_lt_base h, List.dropLast_singleton]
  · next h => rw [Nat.toDigits_of_base_le (by decide) (by omega), List.dropLast_concat]

end Decimal
