import QVPN.Driver.Database
import Mathlib.Data.List.TakeWhile

/-!
# Looking up users

The name a client sends becomes part of the query text and then a LIKE pattern. A name with a
quote or a NUL changes the query. Any other name is accepted exactly when some key matches it
as a pattern, so the answer is wrong for the tables in which only other keys match. Every byte
that is not a plain character gives such a table: wildcards and letters match other
characters, and a character beyond ASCII has a second spelling.
-/

namespace QVPN

open SQLiteDatabase

/-- Reading a literal drops its closing quote and one quote of each pair. -/
theorem readLiteral_length {text value after : List UByte}
    (h : readLiteral text = some (value, after)) :
    value.length + after.length + 1 ≤ text.length ∧
      (value.length + after.length + 1 = text.length → (0x27 : UByte) ∉ value) := by
  induction text using readLiteral.induct generalizing value with
  | case1 => simp [readLiteral] at h
  | case2 b rest hb ih =>
    rw [readLiteral_cons hb] at h
    obtain ⟨p, hp, hpair⟩ := Option.map_eq_some_iff.mp h
    obtain ⟨rfl, rfl⟩ := Prod.mk.inj hpair
    obtain ⟨hle, heq⟩ := ih hp
    simp only [List.length_cons, List.mem_cons, not_or]
    exact ⟨by omega, fun hlen => ⟨fun h => hb h.symm, heq (by omega)⟩⟩
  | case3 b hb =>
    simp only [readLiteral, hb, if_false, Option.some.injEq, Prod.mk.injEq] at h
    obtain ⟨rfl, rfl⟩ := h
    simp
  | case4 b hb rest ih =>
    simp only [readLiteral, hb, if_false, if_true] at h
    obtain ⟨p, hp, hpair⟩ := Option.map_eq_some_iff.mp h
    obtain ⟨rfl, rfl⟩ := Prod.mk.inj hpair
    obtain ⟨hle, -⟩ := ih hp
    simp only [List.length_cons]
    exact ⟨by omega, fun hlen => absurd hlen (by omega)⟩
  | case5 b hb c rest hc =>
    simp only [readLiteral, hb, hc, if_false, Option.some.injEq, Prod.mk.injEq] at h
    obtain ⟨rfl, rfl⟩ := h
    simp

/-- Up to the first NUL a text has fewer bytes, unless it has no NUL. -/
theorem cString_length (text : List UByte) :
    (cString text).length ≤ text.length ∧
      ((cString text).length = text.length → (0 : UByte) ∉ text) := by
  have hcut : cString text <+: text := List.takeWhile_prefix _
  refine ⟨hcut.length_le, fun hlen hmem => ?_⟩
  rw [← hcut.eq_of_length hlen] at hmem
  have hnz := List.mem_takeWhile_imp hmem
  simp at hnz

/-- Text without a NUL is read to its end. -/
theorem cString_eq {text : List UByte} (h : (0 : UByte) ∉ text) : cString text = text := by
  apply List.takeWhile_eq_self_iff.mpr
  intro b hb
  simpa using fun hzero : b = 0 => h (hzero ▸ hb)

/-- Behind bytes that are no quotes the closing quote ends the literal. -/
theorem readLiteral_append {user : List UByte} (h : (0x27 : UByte) ∉ user) :
    readLiteral (user ++ [0x27]) = some (user, []) := by
  induction user with
  | nil => rfl
  | cons b user ih =>
    obtain ⟨hb, huser⟩ := not_or.mp (mt List.mem_cons.mpr h)
    rw [List.cons_append, readLiteral_cons (fun hq => hb hq.symm), ih huser]
    rfl

/-- A name keeps the meaning of the query exactly when it has no quote and no NUL. -/
theorem keepsMeaning_iff (user : List UByte) :
    KeepsMeaning user ↔ ∀ b ∈ user, b ≠ 0 ∧ b ≠ 0x27 := by
  constructor
  · intro h b hb
    obtain ⟨hlit, hquote⟩ := readLiteral_length h
    obtain ⟨hcut, hnul⟩ := cString_length (user ++ [0x27])
    simp only [List.length_append, List.length_singleton, List.length_nil] at hlit hcut hquote hnul
    exact ⟨fun hzero => hnul (by omega) (List.mem_append_left _ (hzero ▸ hb)),
      fun hq => hquote (by omega) (hq ▸ hb)⟩
  · intro h
    have hnul : (0 : UByte) ∉ user ++ [0x27] := by
      simpa using fun hmem : (0 : UByte) ∈ user => (h 0 hmem).1 rfl
    rw [KeepsMeaning, cString_eq hnul]
    exact readLiteral_append fun hmem => (h 0x27 hmem).2 rfl

/-- The answer of the callback is whether there was a row. -/
theorem foldl_checkUserCallback {columns : ℕ} (hcolumns : 0 < columns) (rows : List (List UByte))
    (b : Bool) : (rows.map fun _ => columns).foldl checkUserCallback b =
      if rows.isEmpty then b else true := by
  induction rows generalizing b with
  | nil => rfl
  | cons row rows ih =>
    have htrue : checkUserCallback b columns = true := decide_eq_true hcolumns
    rw [List.map_cons, List.foldl_cons, htrue, ih]
    simp

/-- A name that keeps the meaning of the query is accepted when some key matches it. -/
theorem checkUser_eq_any {columns : ℕ} {exec : UsersTable → List UByte → SqlResult}
    (hexec : RunsSelect columns exec) {user : List UByte} (huser : user.length ≤ 255)
    (hplain : ∀ b ∈ user, b ≠ 0 ∧ b ≠ 0x27) (table : UsersTable) :
    checkUser (exec table) user = true ↔ ∃ key ∈ table.keys, likeFunc user key = true := by
  have hnul : (0 : UByte) ∉ user ++ [0x27] := by
    simpa using fun hmem : (0 : UByte) ∈ user => (hplain 0 hmem).1 rfl
  have hselect : (0 : UByte) ∉ selectText := by decide +kernel
  have hsql : cString (selectText ++ user ++ [0x27]) = selectText ++ (user ++ [0x27]) := by
    rw [List.append_assoc]
    exact cString_eq fun h => (List.mem_append.mp h).elim hselect hnul
  have hrun := hexec.select table (user ++ [0x27]) user hnul
    (readLiteral_append fun hmem => (hplain 0x27 hmem).2 rfl)
    (huser.trans (by decide))
  rw [checkUser, hsql, hrun]
  dsimp only
  rw [foldl_checkUserCallback hexec.columns_pos, if_pos rfl]
  simp [List.filter_eq_nil_iff]

/-- ASCII text decodes to itself. -/
theorem readUtf8_ascii {text : List UByte} (h : ∀ b ∈ text, b < 0x80) :
    readUtf8 none text = text.map UInt8.toUInt32 := by
  induction text with
  | nil => rfl
  | cons b text ih =>
    have hb : ¬b ≥ 0xC0 := by
      have := h b (List.mem_cons_self ..)
      rw [ge_iff_le, UInt8.le_iff_toNat_le]
      rw [UInt8.lt_iff_toNat_lt] at this
      simp at *
      omega
    rw [readUtf8, if_neg hb, ih fun c hc => h c (List.mem_cons_of_mem _ hc)]
    rfl

/-- A multi-byte character never decodes to an ASCII character. -/
theorem legalChar_ge (c : UInt) : 0x80 ≤ legalChar c := by
  unfold legalChar
  split
  · decide
  · rename_i h
    exact UInt32.not_lt.mp fun hc => h (Or.inl hc)

/-- What is decoded from inside a multi-byte character starts beyond ASCII. -/
theorem readUtf8_pending (c : UInt) (text : List UByte) :
    ∃ d rest, readUtf8 (some c) text = d :: rest ∧ 0x80 ≤ d := by
  induction text generalizing c with
  | nil => exact ⟨_, _, rfl, legalChar_ge c⟩
  | cons b text ih =>
    rw [readUtf8]
    split
    · exact ih _
    · exact ⟨_, _, rfl, legalChar_ge c⟩

/-- Only ASCII text decodes to ASCII characters. -/
theorem readUtf8_eq_ascii {text user : List UByte} (huser : ∀ b ∈ user, b < 0x80)
    (h : readUtf8 none text = user.map UInt8.toUInt32) : text = user := by
  induction text generalizing user with
  | nil =>
    rw [readUtf8] at h
    exact (List.map_eq_nil_iff.mp h.symm).symm
  | cons b text ih =>
    have hascii {d : UInt} {rest : List UInt} (hd : 0x80 ≤ d)
        (heq : d :: rest = user.map UInt8.toUInt32) : False := by
      obtain ⟨c, cs, rfl, rfl, -⟩ := List.map_eq_cons_iff.mp heq.symm
      have hc := huser c (List.mem_cons_self ..)
      rw [UInt32.le_iff_toNat_le] at hd
      rw [UInt8.lt_iff_toNat_lt] at hc
      simp at hd hc
      omega
    rw [readUtf8] at h
    split at h
    · obtain ⟨d, rest, hd, hge⟩ := readUtf8_pending (utf8Trans1 b) text
      rw [hd] at h
      exact (hascii hge h).elim
    · obtain ⟨c, cs, rfl, hc, hcs⟩ := List.map_eq_cons_iff.mp h.symm
      rw [ih (fun d hd => huser d (List.mem_cons_of_mem _ hd)) hcs.symm, UInt8.toUInt32_inj.mp hc]

/-- Another spelling of the characters beyond ASCII: a first byte becomes an empty one followed
by its payload, and a stray continuation byte gets a first byte. -/
def respell : Bool → List UByte → List UByte
  | _, [] => []
  | inside, b :: rest =>
    if b ≥ 0xC0 then 0xC0 :: (0x80 ||| (utf8Trans1 b).toUInt8) :: respell true rest
    else if b < 0x80 then b :: respell false rest
    else if inside then b :: respell true rest
    else 0xC2 :: b :: respell false rest

/-- The payload of a first byte, put into a continuation byte, is read back. -/
theorem utf8Trans1_continuation (b : UByte) (hb : b ≥ 0xC0) :
    (0x80 ||| (utf8Trans1 b).toUInt8) &&& 0xC0 = 0x80 ∧
      ((0x80 ||| (utf8Trans1 b).toUInt8) &&& 0x3F).toUInt32 = utf8Trans1 b ∧
      (0x80 ||| (utf8Trans1 b).toUInt8) ≠ 0 := by
  revert b
  exact forall_byte (by decide +kernel)

/-- A byte between ASCII and the first bytes is a continuation byte, and the character of two
bytes that it ends is the byte itself. -/
theorem continuation_of_ge (b : UByte) (hfirst : ¬b ≥ 0xC0) (hascii : ¬b < 0x80) :
    b &&& 0xC0 = 0x80 ∧ legalChar (utf8Trans1 0xC2 <<< 6 + (b &&& 0x3F).toUInt32) = b.toUInt32 := by
  revert b
  exact forall_byte (by decide +kernel)

/-- The other bytes end a pending character. -/
theorem not_continuation (b : UByte) (h : b ≥ 0xC0 ∨ b < 0x80) : ¬b &&& 0xC0 = 0x80 := by
  revert b
  exact forall_byte (by decide +kernel)

/-- A respelled text never starts with a continuation byte. -/
theorem readUtf8_respell_complete (c : UInt) (text : List UByte) :
    readUtf8 (some c) (respell false text) = legalChar c :: readUtf8 none (respell false text) := by
  cases text with
  | nil => rfl
  | cons b text =>
    rw [respell]
    split
    · exact readUtf8_complete (by decide) _ _
    · split
      · exact readUtf8_complete (not_continuation b (Or.inr (by assumption))) _ _
      · exact readUtf8_complete (by decide) _ _

/-- Respelling keeps the characters. -/
theorem readUtf8_respell (text : List UByte) :
    readUtf8 none (respell false text) = readUtf8 none text ∧
      ∀ c, readUtf8 (some c) (respell true text) = readUtf8 (some c) text := by
  induction text with
  | nil => exact ⟨rfl, fun c => rfl⟩
  | cons b text ih =>
    obtain ⟨hnone, hsome⟩ := ih
    by_cases hfirst : b ≥ 0xC0
    · obtain ⟨hcont, hpayload, -⟩ := utf8Trans1_continuation b hfirst
      have hstart : readUtf8 none (0xC0 :: (0x80 ||| (utf8Trans1 b).toUInt8) :: respell true text) =
          readUtf8 none (b :: text) := by
        have hzero : utf8Trans1 0xC0 <<< 6 + utf8Trans1 b = utf8Trans1 b := UInt32.zero_add _
        rw [readUtf8_first (by decide), readUtf8_continue hcont, hpayload, hzero, hsome,
          readUtf8_first hfirst]
      simp only [respell, hfirst, if_true]
      refine ⟨hstart, fun c => ?_⟩
      rw [readUtf8_complete (by decide), hstart,
        readUtf8_complete (not_continuation b (Or.inl hfirst))]
    · by_cases hascii : b < 0x80
      · have hother := not_continuation b (Or.inr hascii)
        simp only [respell, hfirst, hascii, if_true, if_false]
        have hstart : readUtf8 none (b :: respell false text) = readUtf8 none (b :: text) := by
          rw [readUtf8_single hfirst, readUtf8_single hfirst, hnone]
        refine ⟨hstart, fun c => ?_⟩
        rw [readUtf8_complete hother, hstart, readUtf8_complete hother]
      · obtain ⟨hcont, hpayload⟩ := continuation_of_ge b hfirst hascii
        simp only [respell, hfirst, hascii, if_false, if_true, Bool.false_eq_true]
        constructor
        · rw [readUtf8_first (by decide), readUtf8_continue hcont, readUtf8_respell_complete,
            hpayload, hnone, readUtf8_single hfirst]
        · intro c
          rw [readUtf8_continue hcont, hsome, readUtf8_continue hcont]

/-- Respelling introduces no NUL. -/
theorem respell_noNul {text : List UByte} (h : (0 : UByte) ∉ text) (inside : Bool) :
    (0 : UByte) ∉ respell inside text := by
  induction text generalizing inside with
  | nil => simp [respell]
  | cons b text ih =>
    obtain ⟨hb, htext⟩ := not_or.mp (mt List.mem_cons.mpr h)
    have hrest := ih htext
    rw [respell]
    split
    · rename_i hfirst
      simpa [hrest] using (utf8Trans1_continuation b hfirst).2.2.symm
    · split
      · simpa [hrest] using hb
      · split <;> simpa [hrest] using hb

/-- Respelling lengthens a text that is not ASCII. -/
theorem respell_length (text : List UByte) (inside : Bool) :
    text.length ≤ (respell inside text).length ∧
      ((∃ b ∈ text, ¬b < 0x80) → inside = false → text.length < (respell inside text).length) := by
  induction text generalizing inside with
  | nil => simp [respell]
  | cons b text ih =>
    rw [respell]
    split
    · have := (ih true).1
      simp only [List.length_cons]
      exact ⟨by omega, fun _ _ => by omega⟩
    · split
      · rename_i hascii
        obtain ⟨hle, hlt⟩ := ih false
        simp only [List.length_cons]
        refine ⟨by omega, fun ⟨c, hc, hnot⟩ _ => ?_⟩
        obtain rfl | hc := List.mem_cons.mp hc
        · exact absurd hascii hnot
        · have := hlt ⟨c, hc, hnot⟩ rfl
          omega
      · split
        · have := (ih true).1
          rename_i hinside
          simp only [List.length_cons]
          exact ⟨by omega, fun _ hfalse => by simp [hfalse] at hinside⟩
        · have := (ih false).1
          simp only [List.length_cons]
          exact ⟨by omega, fun _ _ => by omega⟩

/-- A different ASCII byte that a wildcard or a letter accepts. -/
def otherByte (b : UByte) : UByte := if b = 0x5F then 0x2D else b ^^^ 0x20

theorem otherByte_spec (b : UByte) (hascii : b < 0x80) (hzero : b ≠ 0) (hquote : b ≠ 0x27)
    (hany : b ≠ 0x25) (hnot : ¬PlainByte b) :
    otherByte b < 0x80 ∧ otherByte b ≠ 0 ∧ otherByte b ≠ b ∧
      (b.toUInt32 = likeInfo.one ∨ toLower b.toUInt32 = toLower (otherByte b).toUInt32) := by
  revert b
  exact forall_byte (by decide +kernel)

/-- Among ASCII texts LIKE compares the bytes. -/
theorem likeFunc_ascii {user key : List UByte} (huser : ∀ b ∈ user, b < 0x80 ∧ b ≠ 0)
    (hkey : ∀ b ∈ key, b < 0x80 ∧ b ≠ 0) :
    likeFunc user key =
      Like.accepts likeInfo (user.map UInt8.toUInt32) (key.map UInt8.toUInt32) := by
  rw [likeFunc, cString_eq fun h => (huser 0 h).2 rfl, cString_eq fun h => (hkey 0 h).2 rfl,
    readUtf8_ascii fun b hb => (huser b hb).1, readUtf8_ascii fun b hb => (hkey b hb).1]

/-- A name matches itself. -/
theorem likeFunc_self (user : List UByte) : likeFunc user user = true :=
  Like.accepts_self likeInfo _

/-- A name with a byte that is not plain matches a key other than itself. -/
theorem exists_other_match {user : List UByte} (hkeep : ∀ b ∈ user, b ≠ 0 ∧ b ≠ 0x27) {b : UByte}
    (hb : b ∈ user) (hnot : ¬PlainByte b) :
    ∃ key, (0 : UByte) ∉ key ∧ key ≠ user ∧ likeFunc user key = true := by
  have hnul : (0 : UByte) ∉ user := fun h => (hkeep 0 h).1 rfl
  by_cases hascii : ∀ c ∈ user, c < 0x80
  · have hbytes : ∀ c ∈ user, c < 0x80 ∧ c ≠ 0 := fun c hc => ⟨hascii c hc, (hkeep c hc).1⟩
    obtain ⟨pre, post, rfl⟩ := List.append_of_mem hb
    by_cases hany : b = 0x25
    -- the percent sign also stands for no text at all
    · have hkey : ∀ c ∈ pre ++ post, c < 0x80 ∧ c ≠ 0 := fun c hc => hbytes c (by
        simp only [List.mem_append, List.mem_cons] at hc ⊢
        tauto)
      refine ⟨pre ++ post, fun h => (hkey 0 h).2 rfl, fun h => ?_, ?_⟩
      · simpa using congrArg List.length h
      · rw [likeFunc_ascii hbytes hkey, List.map_append, List.map_append, List.map_cons, hany]
        exact Like.accepts_append _ (Like.accepts_any [] (Like.accepts_self _ _))
    · obtain ⟨hlt, hzero, hne, haccept⟩ :=
        otherByte_spec b (hascii b hb) (hkeep b hb).1 (hkeep b hb).2 hany hnot
      have hkey : ∀ c ∈ pre ++ otherByte b :: post, c < 0x80 ∧ c ≠ 0 := by
        intro c hc
        simp only [List.mem_append, List.mem_cons] at hc
        obtain hc | rfl | hc := hc
        · exact hbytes c (by simp [hc])
        · exact ⟨hlt, hzero⟩
        · exact hbytes c (by simp [hc])
      refine ⟨pre ++ otherByte b :: post, fun h => (hkey 0 h).2 rfl, fun h => ?_, ?_⟩
      · exact hne (List.cons.inj (List.append_cancel_left h)).1
      · rw [likeFunc_ascii hbytes hkey, List.map_append, List.map_append, List.map_cons,
          List.map_cons]
        exact Like.accepts_append _ (Like.accepts_cons haccept (Like.accepts_self _ _))
  -- a name beyond ASCII has a longer spelling of the same characters
  · have hlt := (respell_length user false).2 (by simpa using hascii) rfl
    refine ⟨respell false user, respell_noNul hnul false, fun h => ?_, ?_⟩
    · rw [h] at hlt
      omega
    · rw [likeFunc, cString_eq hnul, cString_eq (respell_noNul hnul false),
        (readUtf8_respell user).1]
      exact Like.accepts_self _ _

/-- Only itself folds to a character that is no letter. -/
theorem eq_of_toLower_eq {b : UByte} (hb : PlainByte b) {c : UInt}
    (h : toLower b.toUInt32 = toLower c) : c = b.toUInt32 := by
  obtain ⟨-, -, -, -, -, hupper, hlower⟩ := hb
  have hself : toLower b.toUInt32 = b.toUInt32 := if_neg fun hu => hupper (by
    simpa [UInt32.le_iff_toNat_le, UInt8.le_iff_toNat_le] using hu)
  rw [hself] at h
  unfold toLower at h
  split at h
  · rename_i hc
    refine absurd ?_ hlower
    have hnum := congrArg UInt32.toNat h
    simp [UInt32.le_iff_toNat_le, UInt8.le_iff_toNat_le] at hc hnum ⊢
    omega
  · exact h.symm

/-- A plain name matches itself only. -/
theorem eq_of_likeFunc {user key : List UByte} (hplain : ∀ b ∈ user, PlainByte b)
    (hkey : (0 : UByte) ∉ key) (h : likeFunc user key = true) : key = user := by
  have hascii : ∀ b ∈ user, b < 0x80 := fun b hb => (hplain b hb).1
  have hwild : ∀ c ∈ user.map UInt8.toUInt32, c ≠ likeInfo.any ∧ c ≠ likeInfo.one := by
    intro c hc
    obtain ⟨b, hb, rfl⟩ := List.mem_map.mp hc
    obtain ⟨-, -, -, hany, hone, -⟩ := hplain b hb
    exact ⟨fun h => hany (UInt8.toUInt32_inj.mp h), fun h => hone (UInt8.toUInt32_inj.mp h)⟩
  rw [likeFunc, cString_eq fun h => (hplain 0 h).2.1 rfl, cString_eq hkey, readUtf8_ascii hascii,
    Like.accepts_plain hwild] at h
  apply readUtf8_eq_ascii hascii
  generalize readUtf8 none key = chars at h ⊢
  induction user generalizing chars with
  | nil => simpa using h
  | cons b user ih =>
    cases chars with
    | nil => simp at h
    | cons c chars =>
      obtain ⟨hhead, htail⟩ := List.cons.inj h
      obtain ⟨hb, huser⟩ := List.forall_mem_cons.mp hplain
      rw [eq_of_toLower_eq hb hhead, ih huser (fun b hb => (huser b hb).1) ?_ chars htail]
      · rfl
      · exact fun c hc => hwild c (List.mem_cons_of_mem _ hc)

/-- The name is the literal of the query, and it is accepted exactly when it is a key. -/
def ExactOn (exec : UsersTable → List UByte → SqlResult) (user : List UByte) (table : UsersTable) :
    Prop :=
  KeepsMeaning user ∧ (checkUser (exec table) user = true ↔ user ∈ table.keys)

/-- A name that keeps the meaning of the query is checked exactly unless only other keys match
it. -/
theorem exactOn_iff {columns : ℕ} {exec : UsersTable → List UByte → SqlResult}
    (hexec : RunsSelect columns exec) {user : List UByte} (huser : user.length ≤ 255)
    (table : UsersTable) :
    ExactOn exec user table ↔ (∀ b ∈ user, b ≠ 0 ∧ b ≠ 0x27) ∧
      (user ∈ table.keys ∨ ∀ key ∈ table.keys, likeFunc user key = false) := by
  rw [ExactOn, keepsMeaning_iff]
  apply and_congr_right
  intro hkeep
  rw [checkUser_eq_any hexec huser hkeep]
  constructor
  · intro hexact
    by_cases hmem : user ∈ table.keys
    · exact Or.inl hmem
    · refine Or.inr fun key hkey => ?_
      exact Bool.eq_false_iff.mpr fun hlike => hmem (hexact.mp ⟨key, hkey, hlike⟩)
  · intro h
    constructor
    · rintro ⟨key, hkey, hlike⟩
      obtain hmem | hnone := h
      · exact hmem
      · rw [hnone key hkey] at hlike
        cases hlike
    · exact fun hmem => ⟨user, hmem, likeFunc_self user⟩

/-- The check is exact on a table unless the name changes the query or only other keys match it;
it is exact on every table for the names of plain bytes only. -/
theorem checkUser_exact {columns : ℕ} {exec : UsersTable → List UByte → SqlResult}
    (hexec : RunsSelect columns exec) {user : List UByte} (huser : user.length ≤ 255) :
    (∀ table, ExactOn exec user table ↔ (∀ b ∈ user, b ≠ 0 ∧ b ≠ 0x27) ∧
      (user ∈ table.keys ∨ ∀ key ∈ table.keys, likeFunc user key = false)) ∧
      ((∀ table, ExactOn exec user table) ↔ ∀ b ∈ user, PlainByte b) := by
  refine ⟨exactOn_iff hexec huser, ?_⟩
  constructor
  · intro hall b hb
    have hkeep := ((exactOn_iff hexec huser _).mp (hall ⟨[], by simp⟩)).1
    by_contra hnot
    obtain ⟨key, hkey, hne, hlike⟩ := exists_other_match hkeep hb hnot
    obtain ⟨-, hmem | hnone⟩ := (exactOn_iff hexec huser _).mp (hall ⟨[key], by simpa using hkey⟩)
    · exact hne (List.mem_singleton.mp hmem).symm
    · rw [hnone key (List.mem_singleton_self key)] at hlike
      cases hlike
  · intro hplain table
    refine (exactOn_iff hexec huser table).mpr
      ⟨fun b hb => ⟨(hplain b hb).2.1, (hplain b hb).2.2.1⟩, ?_⟩
    by_cases hmem : user ∈ table.keys
    · exact Or.inl hmem
    · refine Or.inr fun key hkey => Bool.eq_false_iff.mpr fun hlike => hmem ?_
      rw [← eq_of_likeFunc hplain (table.noNul key hkey) hlike]
      exact hkey

/-- An engine for the queries of the expected form. Any other text fails. -/
def selectEngine (table : UsersTable) (text : List UByte) : SqlResult :=
  match readLiteral (text.drop selectText.length) with
  | some (pattern, []) =>
    if text.take selectText.length = selectText ∧ pattern.length ≤ maxLikePatternLength then
      ⟨true, (table.keys.filter (likeFunc pattern)).map fun _ => 2⟩
    else ⟨false, []⟩
  | _ => ⟨false, []⟩

theorem selectEngine_runsSelect : RunsSelect 2 selectEngine where
  columns_pos := by decide
  select table literal pattern _ hread hlen := by
    rw [selectEngine, List.drop_left, hread]
    exact if_pos ⟨List.take_left, hlen⟩

/-- The table with the one key `alice`. -/
def aliceTable : UsersTable := ⟨["alice".toUTF8.toList], by decide +kernel⟩

/-- The name `%` is accepted although the only key is `alice`. -/
theorem checkUser_percent_not_exact :
    ¬(checkUser (selectEngine aliceTable) [0x25] = true ↔ [0x25] ∈ aliceTable.keys) := by
  decide +kernel

/-- A name of digits is plain. -/
theorem checkUser_exact_digits :
    (∀ table, ExactOn selectEngine [0x31, 0x32] table ↔
      (∀ b ∈ ([0x31, 0x32] : List UByte), b ≠ 0 ∧ b ≠ 0x27) ∧
        ([0x31, 0x32] ∈ table.keys ∨ ∀ key ∈ table.keys, likeFunc [0x31, 0x32] key = false)) ∧
      ((∀ table, ExactOn selectEngine [0x31, 0x32] table) ↔
        ∀ b ∈ ([0x31, 0x32] : List UByte), PlainByte b) :=
  checkUser_exact selectEngine_runsSelect (by decide)

end QVPN
